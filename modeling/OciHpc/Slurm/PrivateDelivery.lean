import OciHpc.Slurm.DeliveryWorld

/-!
# Notifications are private

Mail programs queue messages, the registry is replaced and runs of the worker are started, killed and refused, in any
order, and any call of the worker may fail.

* `carried` : what the texts of a message say of the fields that the worker reads;
* `markRetry_handling` : a message that is written back stays the message of its job;
* `publish_private` : what is published is private;
* `privately_delivered` : every request ever made carries the notification of a job to the Topic of the job's user, and
  before it expires.
-/

namespace OciHpc.Slurm.Delivery
open OciHpc.ClusterCli (RegistryFile)
open PyText (ofString)

variable {py : Python} {registry : RegistryFile} {message : Dict} {now : Int} {w w' : World}

/-! ## The programs that keep what is traced -/

theorem mild_work {call : WorkerCall} (h : mild call = true) : Mild (work call) := Prog.calls_perform h

theorem mild_bind {α β : Type} {p : Worker α} {f : α → Worker β} (hp : Mild p) (hf : ∀ a, Mild (f a)) :
    Mild (p.bind f) := Prog.Calls.bind hp hf

theorem mild_exceptOs {α : Type} {p handler : Worker α} (hp : Mild p) (hh : Mild handler) :
    Mild (exceptOs p handler) := by
  refine Prog.Calls.tryCatch hp fun e => ?_
  split
  · exact hh
  · trivial

theorem mild_executableOrFound (executable : Option String) : Mild (executableOrFound executable) := by
  have hfind : Mild findOci := by
    refine mild_bind (mild_work rfl) fun found => ?_
    cases found with
    | some executable => trivial
    | none =>
      refine mild_bind (mild_work rfl) fun found => ?_
      cases found with
      | true => trivial
      | false =>
        refine mild_bind (mild_work rfl) fun found => ?_
        cases found <;> trivial
  cases executable with
  | none => exact hfind
  | some executable =>
    unfold executableOrFound
    dsimp only
    split
    · exact hfind
    · trivial

theorem mild_removeInput (path : String) : Mild (removeInput path) := by
  refine mild_bind (mild_work rfl) fun left => ?_
  cases left with
  | true => exact mild_exceptOs (mild_work rfl) trivial
  | false => trivial

theorem mild_removeTemporary (path : String) : Mild (removeTemporary path) := by
  refine mild_bind (mild_work rfl) fun left => ?_
  cases left with
  | true => exact mild_work rfl
  | false => trivial

theorem mild_moveAside (name failedName : FileName) : Mild (moveAside name failedName) :=
  mild_bind (mild_work rfl) fun _ => mild_work rfl

theorem mild_expire (name : FileName) : Mild (expire name) :=
  mild_bind (mild_moveAside name name) fun _ => mild_work rfl

theorem mild_discard (name : FileName) : Mild (discard name) := mild_bind (mild_work rfl) fun _ => mild_work rfl

theorem mild_removeDelivered (name : FileName) : Mild (removeDelivered name) := by
  refine mild_bind (mild_exceptOs (mild_work rfl) ?_) fun _ => mild_work rfl
  exact mild_bind (mild_exceptOs (mild_moveAside name _) trivial) fun _ => mild_work rfl

theorem mild_takeSlot : Mild takeSlot := by
  refine mild_bind (mild_bind (mild_work rfl) fun lastPublishAt => mild_bind (mild_work rfl) fun currentTime => ?_)
    fun _ => mild_bind (mild_work rfl) fun timestamp => ?_
  · cases lastPublishAt with
    | number time =>
      dsimp only
      split
      · exact mild_work rfl
      · trivial
    | blank => trivial
    | malformed => trivial
  · exact mild_bind (mild_work rfl) fun _ => mild_bind (mild_work rfl) fun _ => mild_work rfl

theorem mild_queuedMessageNames : Mild queuedMessageNames := by
  refine mild_bind (mild_work rfl) fun names => mild_bind ?_ fun aged => trivial
  refine Prog.Calls.forEach (fun aged name => ?_) _ []
  exact mild_bind (mild_exceptOs (mild_work rfl) trivial) fun age => trivial

/-! ## The fields of a message -/

theorem SameMail.text {original : Dict} (h : SameMail message original) {field : String}
    (hattempts : field ≠ "attempts") (hnext : field ≠ "next_attempt_at") :
    textField message field = textField original field := by
  unfold textField
  rw [h field hattempts hnext]

/-- What the worker reads of the message of these texts. -/
structure Carried (m : MessageTexts) (message : Dict) : Prop where
  topicId : m.topicId = .str (textField message "topic_id")
  region : m.region = .str (textField message "region")
  username : PyText.encode m.username = some (textField message "username")
  title : PyText.encode m.title = some (textField message "title")
  body : PyText.encode m.body = some (textField message "body")
  expiry : countField message "expires_at" = m.now + 7200

theorem encode_of_encoded {t : PyText} {s : String} (h : encoded t = .ok s) : PyText.encode t = some s :=
  PyText.encode_eq_some.mpr (encoded_eq_ok h)

theorem eq_str_of_isStr {value : Json} (h : isStr (some value) = true) :
    value = .str ((Json.str? value).getD "") := by
  cases value with
  | str s => rfl
  | _ => cases h

theorem carried {m : MessageTexts} {original : Dict} (hm : messageJson m = .ok (.obj original))
    (hsame : SameMail message original) (hvalid : Valid message) : Carried m message := by
  have htopic := hvalid.texts "topic_id" (by decide)
  have hregion := hvalid.texts "region" (by decide)
  rw [hsame "topic_id" (by decide) (by decide)] at htopic
  rw [hsame "region" (by decide) (by decide)] at hregion
  have hexpiry : countField message "expires_at" = countField original "expires_at" := by
    unfold countField
    rw [hsame "expires_at" (by decide) (by decide)]
  unfold messageJson at hm
  obtain ⟨username, husername, hm⟩ := bind_eq_ok hm
  obtain ⟨jobId, -, hm⟩ := bind_eq_ok hm
  obtain ⟨event, -, hm⟩ := bind_eq_ok hm
  obtain ⟨title, htitle, hm⟩ := bind_eq_ok hm
  obtain ⟨body, hbody, hm⟩ := bind_eq_ok hm
  cases hm
  refine ⟨?_, ?_, ?_, ?_, ?_, hexpiry⟩
  · rw [hsame.text (by decide) (by decide)]
    exact eq_str_of_isStr htopic
  · rw [hsame.text (by decide) (by decide)]
    exact eq_str_of_isStr hregion
  · rw [hsame.text (by decide) (by decide)]
    exact encode_of_encoded husername
  · rw [hsame.text (by decide) (by decide)]
    exact encode_of_encoded htitle
  · rw [hsame.text (by decide) (by decide)]
    exact encode_of_encoded hbody

/-! ## Writing a message back -/

/-- The record of an attempt does not change what the message says. -/
theorem Handling.retried (h : Handling py registry message w) (attempts next : Json) :
    Mine w (Dict.set (Dict.set message "attempts" attempts) "next_attempt_at" next) := by
  obtain ⟨s, hs, original, horiginal, hsame⟩ := h.mine
  refine ⟨s, hs, original, horiginal, fun field hattempts hnext => ?_⟩
  rw [Dict.get?_set_ne _ _ hnext, Dict.get?_set_ne _ _ hattempts]
  exact hsame field hattempts hnext

theorem mild_seq {β : Type} {I : World → Prop} {Q : Post World WorkerError β} (hI : Steady py I) {call : WorkerCall}
    {f : call.Ans → Worker β} (hmild : mild call = true) (hw : I w) (hcut : ∀ w', I w' → Q.cut w')
    (hexc : ∀ e w', I w' → Q.exc e w') (hf : ∀ a w', I w' → (f a).wp (answers py) Q w') :
    ((work call).bind f).wp (answers py) Q w :=
  Prog.wp_seq (Prog.wp_mono ((mild_work hmild).keeps hI w hw) (fun _ _ h => h) hexc hcut) hf

theorem atomicWrite_handling (name : FileName) {retried : Dict}
    (hretried : ∀ w, Handling py registry message w → Mine w retried) (h : Handling py registry message w) :
    (atomicWrite name retried).wp (answers py) (Locked.always (Handling py registry message)) w := by
  refine mild_seq steady_handling rfl h (fun _ h => h) (fun _ _ h => h) fun path w₁ h₁ => ?_
  have hclean : ∀ (result : Except WorkerError Unit), Prog.Keeps (answers py) (Handling py registry message)
      ((removeTemporary path).bind fun _ => .ofExcept result) := fun result =>
    (mild_bind (mild_removeTemporary path) fun _ => Prog.calls_ofExcept _ result).keeps steady_handling
  refine Prog.wp_seq_attempt (R := fun _ => Handling py registry message) ?_ (fun a w₂ h₂ => hclean (.ok a) w₂ h₂)
    fun e w₂ h₂ => hclean (.error e) w₂ h₂
  refine Prog.wp_seq (R := fun _ w' => Handling py registry message w' ∧ w'.temporary path = some retried)
    ⟨h₁, fun r w₂ hr => ?_⟩ fun _ w₂ h₂ => ⟨h₂.1, fun r w₃ hr => ?_⟩
  · obtain ⟨w', harounds, rfl, -⟩ := hr
    have h' := steady_handling.after w' (.writeTemporary path retried) r rfl (steady_handling.arounds harounds h₁)
    cases r with
    | ok => exact ⟨h', if_pos rfl⟩
    | error => exact h'
  · obtain ⟨w', harounds, rfl, -⟩ := hr
    have h' := steady_handling.arounds harounds h₂.1
    have hwritten : w'.temporary path = some retried := (unread_of_arounds harounds).temporary ▸ h₂.2
    cases r with
    | ok =>
      change Handling py registry message (w'.after (.replaceMessage path name) (.ok ()))
      have hafter : w'.after (.replaceMessage path name) (.ok ()) =
          { w' with queue := fun n => if n = name then some (.json (.obj retried)) else w'.queue n } := by
        unfold World.after
        dsimp only
        rw [hwritten]
      rw [hafter]
      refine ⟨⟨⟨fun n content hcontent => ?_, h'.submitted, h'.published⟩, h'.current, h'.known⟩, h'.mine⟩
      dsimp only at hcontent
      split at hcontent
      case isTrue =>
        cases hcontent
        exact ⟨retried, rfl, hretried w' h'⟩
      case isFalse => exact h'.queued n content hcontent
    | error => exact h'

/-- A message that was not read is not written back. -/
theorem markRetry_none (name : FileName) (now : Int) : Mild (markRetry name none now) := by
  unfold markRetry
  rw [if_pos (show expiryOf (Option.getD none []) now ≤ now from le_refl now)]
  exact mild_expire name

theorem markRetry_handling (name : FileName) (now : Int) (h : Handling py registry message w) :
    (markRetry name (some message) now).wp (answers py) (Locked.always (Handling py registry message)) w := by
  unfold markRetry
  dsimp only
  split
  · exact (mild_expire name).keeps steady_handling w h
  · refine Prog.wp_seq (atomicWrite_handling name (fun w h => h.retried _ _) h) fun _ w₁ h₁ => ?_
    exact (mild_work rfl).keeps steady_handling w₁ h₁

/-! ## The handlers -/

theorem time_handling (h : Handling py registry message w) :
    (work .time).wp (answers py) ⟨fun now w' => Timed py registry message now w',
      fun _ => Handling py registry message, Handling py registry message⟩ w := by
  refine ⟨h, fun r w' hr => ?_⟩
  obtain ⟨w₁, harounds, rfl, -⟩ := hr
  have h₁ := steady_handling.arounds harounds h
  cases r with
  | ok now =>
    exact ⟨⟨⟨⟨h₁.queued, h₁.submitted, h₁.published⟩, h₁.current, h₁.known⟩, h₁.mine⟩, rfl⟩
  | error => exact h₁

theorem time_ready (h : Ready py registry w) :
    (work .time).wp (answers py) (Locked.always (Ready py registry)) w := by
  refine ⟨h, fun r w' hr => ?_⟩
  obtain ⟨w₁, harounds, rfl, -⟩ := hr
  have h₁ := steady_ready.arounds harounds h
  cases r with
  | ok now => exact ⟨⟨h₁.queued, h₁.submitted, h₁.published⟩, h₁.current, h₁.known⟩
  | error => exact h₁

theorem onError_ready {loaded : Option Dict} (name : FileName) (progress : Progress) (error : WorkerError)
    (h : Ready py registry w) (hloaded : ∀ message, loaded = some message → Mine w message) :
    (onError name loaded progress error).wp (answers py) (Locked.always (Ready py registry)) w := by
  have hreport : Mild (work (.report name)) := mild_work rfl
  unfold onError
  split
  · refine (mild_bind (mild_exceptOs ?_ hreport) fun _ => ?_).keeps steady_ready w h
    · exact mild_bind (mild_moveAside name name) fun _ => hreport
    · trivial
  · split
    · refine (mild_bind hreport fun _ => ?_).keeps steady_ready w h
      trivial
    · have hretry : ((work .time).bind fun retryNow => markRetry name loaded retryNow).wp (answers py)
          (Locked.always (Ready py registry)) w := by
        cases loaded with
        | none => exact Prog.wp_seq (time_ready h) fun now w₁ h₁ => (markRetry_none name now).keeps steady_ready w₁ h₁
        | some message =>
          refine Prog.wp_seq (Prog.wp_mono (time_handling ⟨h, hloaded message rfl⟩) (fun _ _ h => h)
            (fun _ _ h => h.toReady) fun _ h => h.toReady) fun now w₁ h₁ => ?_
          exact Prog.wp_mono (markRetry_handling name now h₁.toHandling) (fun _ _ h => h.toReady)
            (fun _ _ h => h.toReady) fun _ h => h.toReady
      refine Prog.wp_seq_attempt hretry (fun _ w₁ h₁ => h₁) fun retryError w₁ h₁ => ?_
      dsimp only
      split
      · refine (mild_bind hreport fun _ => ?_).keeps steady_ready w₁ h₁
        trivial
      · exact h₁

/-- The end of the work on a message, whatever came before. -/
theorem settle_ready (name : FileName) (progress : Progress) {p : Worker Unit}
    (hp : p.wp (answers py) (Locked.always (Handling py registry message)) w) :
    (settle name message progress p).wp (answers py) (Locked.always (Ready py registry)) w := by
  have hp' : p.wp (answers py) ⟨fun _ => Handling py registry message, fun _ => Handling py registry message,
      Ready py registry⟩ w := Prog.wp_mono hp (fun _ _ h => h) (fun _ _ h => h) fun _ h => h.toReady
  refine Prog.wp_seq_attempt hp' (fun _ w₁ h₁ => h₁.toReady) fun error w₁ h₁ => ?_
  refine onError_ready name progress error h₁.toReady fun loaded hloaded => ?_
  cases hloaded
  exact h₁.mine

/-! ## Publishing -/

/-- **What is published is private.** -/
theorem Timed.isPrivate (h : Timed py registry message now w) (hvalid : Valid message) {topics : Dict}
    (htopics : loadActiveTopics registry = some topics)
    (hroute : Dict.get? topics (textField message "username") = some (.str (textField message "topic_id")))
    (hunexpired : now < countField message "expires_at") {path : String}
    (hinput : w.inputs path = some (requestOf message)) :
    Private py w ⟨textField message "region", w.inputs path, w.registry, w.now⟩ := by
  obtain ⟨s, hs, original, horiginal, hsame⟩ := h.mine
  obtain ⟨hread, m, hcomposed, hm⟩ := h.submitted s hs
  have hcarried : Carried m message := carried (horiginal ▸ hm) hsame hvalid
  rw [h.current, h.now]
  refine ⟨h.known, s, hs, hread, m, hcomposed, hm, ?_, ?_, hcarried.region, ?_⟩
  · exact ⟨_, _, _, hinput, hcarried.topicId, hcarried.title, hcarried.body⟩
  · refine ⟨topics, _, htopics, hcarried.username, ?_⟩
    rw [hroute, hcarried.topicId]
  · rw [← hcarried.expiry]
    exact hunexpired

/-- The request is written, and the OCI CLI is run on it. -/
theorem attempt_private (h : Timed py registry message now w) (hvalid : Valid message) {topics : Dict}
    (htopics : loadActiveTopics registry = some topics)
    (hroute : Dict.get? topics (textField message "username") = some (.str (textField message "topic_id")))
    (hunexpired : now < countField message "expires_at") (executable path : String) :
    ((work (.writeInput path (textField message "topic_id") (textField message "title") (textField message "body"))).bind
      fun _ => work (.runOci executable (textField message "region") path)).wp (answers py)
      (Locked.always (Handling py registry message)) w := by
  refine Prog.wp_seq (R := fun _ w' => Timed py registry message now w' ∧ w'.inputs path = some (requestOf message))
    ⟨h.toHandling, fun r w₁ hr => ?_⟩ fun _ w₁ h₁ => ⟨h₁.1.toHandling, fun r w₂ hr => ?_⟩
  · obtain ⟨w', harounds, rfl, -⟩ := hr
    have h' := steady_timed.after w' (.writeInput path (textField message "topic_id") (textField message "title")
      (textField message "body")) r rfl (steady_timed.arounds harounds h)
    cases r with
    | ok => exact ⟨h', if_pos rfl⟩
    | error => exact h'.toHandling
  · obtain ⟨w', harounds, rfl, -⟩ := hr
    have h' := steady_timed.arounds harounds h₁.1
    have hinput : w'.inputs path = some (requestOf message) := (unread_of_arounds harounds).inputs ▸ h₁.2
    have hprivate := h'.isPrivate hvalid htopics hroute hunexpired hinput
    have hafter : Handling py registry message { w' with
        publications := ⟨textField message "region", w'.inputs path, w'.registry, w'.now⟩ :: w'.publications } := by
      refine ⟨⟨⟨h'.queued, h'.submitted, fun p hp => ?_⟩, h'.current, h'.known⟩, h'.mine⟩
      obtain rfl | hp := List.mem_cons.mp hp
      · exact hprivate
      · exact h'.published p hp
    cases r with
    | ok => exact hafter
    | error => exact hafter

theorem publish_private (executable : Option String) (h : Timed py registry message now w) (hvalid : Valid message)
    {topics : Dict} (htopics : loadActiveTopics registry = some topics)
    (hroute : Dict.get? topics (textField message "username") = some (.str (textField message "topic_id")))
    (hunexpired : now < countField message "expires_at") :
    (publish message executable).wp (answers py) (Locked.always (Handling py registry message)) w := by
  unfold publish
  refine Prog.wp_ofExcept_seq (fun _ _ => ?_) fun _ _ => h.toHandling
  refine Prog.wp_ofExcept_seq (fun _ _ => ?_) fun _ _ => h.toHandling
  refine Prog.wp_seq (Prog.wp_mono ((mild_executableOrFound executable).keeps steady_timed w h) (fun _ _ h => h)
    (fun _ _ h => h.toHandling) fun _ h => h.toHandling) fun executable w₁ h₁ => ?_
  refine mild_seq steady_timed rfl h₁ (fun _ h => h.toHandling) (fun _ _ h => h.toHandling) fun path w₂ h₂ => ?_
  have hclean : ∀ (result : Except WorkerError OciResult), Prog.Keeps (answers py) (Handling py registry message)
      ((removeInput path).bind fun _ => .ofExcept result) := fun result =>
    (mild_bind (mild_removeInput path) fun _ => Prog.calls_ofExcept _ result).keeps steady_handling
  refine Prog.wp_seq (Prog.wp_seq_attempt (attempt_private h₂ hvalid htopics hroute hunexpired executable path)
    (fun result w₃ h₃ => hclean (.ok result) w₃ h₃) fun e w₃ h₃ => hclean (.error e) w₃ h₃) fun result w₃ h₃ => ?_
  split
  · exact h₃
  · exact h₃

/-! ## The run -/

theorem handleMessage_ready (executable : Option String) {topics : Dict} (name : FileName) (progress : Progress)
    (h : Handling py registry message w) (hvalid : Valid message) (htopics : loadActiveTopics registry = some topics) :
    (handleMessage executable topics name message progress).wp (answers py) (Locked.always (Ready py registry)) w := by
  unfold handleMessage
  refine Prog.wp_seq (Prog.wp_mono (time_handling h) (fun _ _ h => h) (fun _ _ h => h.toReady) fun _ h => h.toReady)
    fun now w₁ h₁ => ?_
  split
  case isTrue => exact h₁.toReady
  case isFalse =>
    split
    case isTrue => exact settle_ready name progress ((mild_expire name).keeps steady_handling w₁ h₁.toHandling)
    case isFalse hexpiry =>
      split
      case isTrue => exact settle_ready name progress ((mild_discard name).keeps steady_handling w₁ h₁.toHandling)
      case isFalse hroute =>
        split
        case isTrue => exact h₁.toReady
        case isFalse =>
          refine Prog.wp_seq_attempt (Prog.wp_mono (mild_takeSlot.keeps steady_timed w₁ h₁) (fun _ _ h => h)
            (fun _ _ h => h.toHandling) fun _ h => h.toReady)
            (fun _ w₂ h₂ => settle_ready name _ ?_) fun error w₂ h₂ => ?_
          · refine Prog.wp_seq (publish_private executable h₂ hvalid htopics (not_not.mp hroute) (not_le.mp hexpiry))
              fun _ w₃ h₃ => ?_
            exact (mild_removeDelivered name).keeps steady_handling w₃ h₃
          · refine onError_ready name progress error h₂.toReady fun loaded hloaded => ?_
            cases hloaded
            exact h₂.mine

theorem examine_ready (executable : Option String) {topics : Dict} (name : FileName) (progress : Progress)
    (h : Ready py registry w) (htopics : loadActiveTopics registry = some topics) :
    (examine executable topics progress name).wp (answers py) (Locked.always (Ready py registry)) w := by
  have hread : ((work (.openMessage name)).bind fun content => .ofExcept (validateMessage content)).wp (answers py)
      ⟨fun message w' => Handling py registry message w' ∧ Valid message, fun _ => Ready py registry,
        Ready py registry⟩ w := by
    refine ⟨h, fun r w₁ hr => ?_⟩
    obtain ⟨w', harounds, hafter, hreturns⟩ := hr
    have h' := steady_ready.arounds harounds h
    obtain rfl : w₁ = w' := by
      rw [hafter]
      cases r <;> rfl
    cases r with
    | error => exact h'
    | ok content =>
      obtain ⟨message, hmessage, hmine⟩ := h'.queued name content (hreturns content rfl)
      change (Prog.ofExcept (validateMessage content)).wp (answers py) _ w₁
      cases hvalid : validateMessage content with
      | error => exact h'
      | ok message' =>
        obtain ⟨hsame, hvalid⟩ := validateMessage_eq_ok.mp hvalid
        obtain rfl : message = message' := Json.obj.inj (hmessage.symm.trans hsame)
        exact ⟨⟨h', hmine⟩, hvalid⟩
  refine Prog.wp_seq_attempt hread (fun message w₁ h₁ => ?_) fun error w₁ h₁ => ?_
  · exact handleMessage_ready executable name progress h₁.1 h₁.2 htopics
  · exact onError_ready name progress error h₁ fun message hloaded => by cases hloaded

theorem processQueue_traced (executable : Option String) (h : Traced py w) :
    (processQueue true executable).wp (answers py) (Locked.always (Traced py)) w := by
  refine Prog.wp_seq (R := fun registry w' => Ready py registry w') ⟨h, fun r w₁ hr => ?_⟩ fun registry w₁ h₁ => ?_
  · obtain ⟨w', harounds, rfl, hreturns⟩ := hr
    have h' := steady_traced.arounds harounds h
    cases r with
    | ok registry =>
      exact ⟨⟨h'.queued, h'.submitted, h'.published⟩, rfl, List.mem_of_mem_head? (hreturns registry rfl)⟩
    | error => exact h'
  · cases htopics : loadActiveTopics registry with
    | none => exact h₁.toTraced
    | some topics =>
      have hrest : (queuedMessageNames.bind fun names =>
          (Prog.forEach (examine executable topics) names ⟨0, 0⟩).bind fun progress => .ret progress.processed).wp
          (answers py) (Locked.always (Ready py registry)) w₁ := by
        refine Prog.wp_seq (mild_queuedMessageNames.keeps steady_ready w₁ h₁) fun names w₂ h₂ => ?_
        refine Prog.wp_seq (Prog.wp_forEach (fun _ _ => Ready py registry) (fun _ _ h => h)
          (fun name _ progress w h => examine_ready executable name progress h htopics) h₂) fun _ _ h => h
      exact Prog.wp_mono hrest (fun _ _ h => h.toTraced) (fun _ _ h => h.toTraced) fun _ h => h.toTraced

/-- **Notifications are delivered privately**: however mail programs, changes of the registry and runs of the worker
interleave, whichever calls fail and wherever runs are killed, every request that the OCI CLI was ever run on carries
the notification of a job to the Topic that the job's user had both when it was queued and in the registry that the run
had read, and less than two hours after it was queued by the clock as it was read when the message was found due, before
the wait for a publish slot. -/
theorem privately_delivered {s : Locked.State workerSig WorkerError Nat World} (hinit : Fresh w)
    (hreach : Locked.Reach (answers py) (Arounds py) IsRun w s) :
    ∀ p ∈ s.world.publications, Private py s.world p := by
  have hrun : ∀ p, IsRun p → ∀ w, Traced py w → p.wp (answers py) (Locked.always (Traced py)) w := by
    intro p hp w hw
    obtain ⟨executable, rfl⟩ := hp
    exact processQueue_traced executable hw
  exact (Locked.Reach.invariant hinit.traced hrun (fun _ _ harounds hw => steady_traced.arounds harounds hw)
    answers_absorbs hreach).published

/-! ## A delivery -/

/-- The files answer as they are, the program of the mail was just queued, and the OCI CLI succeeds. -/
def deliveryAnswer (w : World) : (call : WorkerCall) → Except WorkerError call.Ans
  | .readRegistry =>
    match w.registries with
    | registry :: _ => .ok registry
    | [] => .error (.os "ENOENT")
  | .listSpool => .ok [ofString "m1.json"]
  | .openMessage name =>
    match w.queue name with
    | some (.json content) => .ok content
    | _ => .error (.os "ENOENT")
  | .replaceMessage _ _ => .error (.os "EROFS")
  | .time => .ok 1700000000
  | .modifiedAt _ | .clock => .ok 0
  | .readLock => .ok .blank
  | .which => .ok (some "/usr/bin/oci")
  | .isExecutable _ => .ok true
  | .exists _ => .ok false
  | .mkstemp => .ok "/var/spool/slurm-oci-notify/.publish-input-a.tmp"
  | .runOci _ _ _ => .ok ⟨0, ""⟩
  | .makeFailed | .moveToFailed _ _ | .unlink _ | .sleep _ | .truncateLock | .writeLock _ | .syncLock | .writeInput ..
  | .writeTemporary .. | .unlinkTemporary _ | .report _ | .log => .ok ()

def deliveryOutside (w : World) (call : WorkerCall) : Except WorkerError call.Ans × World :=
  (deliveryAnswer w call, w.after call (deliveryAnswer w call))

theorem deliveryAnswer_returns (w : World) (call : WorkerCall) (a : call.Ans) (h : deliveryAnswer w call = .ok a) :
    w.Returns call a := by
  cases call with
  | readRegistry =>
    unfold deliveryAnswer at h
    cases hregistries : w.registries with
    | nil =>
      rw [hregistries] at h
      cases h
    | cons registry rest =>
      rw [hregistries] at h
      cases h
      exact congrArg List.head? hregistries
  | openMessage name =>
    unfold deliveryAnswer at h
    cases hqueue : w.queue name with
    | none =>
      simp only [hqueue] at h
      cases h
    | some content =>
      cases content with
      | json content =>
        simp only [hqueue] at h
        cases h
        exact hqueue
      | garbled =>
        simp only [hqueue] at h
        cases h
      | nested =>
        simp only [hqueue] at h
        cases h
  | replaceMessage path name => cases h
  | _ => trivial

theorem deliveryOutside_answers (w : World) (call : WorkerCall) :
    answers asciiPython w call (deliveryOutside w call).1 (deliveryOutside w call).2 :=
  ⟨w, .refl, rfl, deliveryAnswer_returns w call⟩

/-- `ann` has a Topic, and nothing is queued. -/
def nothingQueued : World where
  registries := [.json (.obj annRegistry)]
  queue := fun _ => none
  inputs := fun _ => none
  temporary := fun _ => none
  registry := .absent
  now := 0
  submissions := []
  publications := []

/-- What the mail program has placed for `ann`. -/
def annPlaced : List (String × Json) := (annProgram.run fineOutside (⟨fun _ => none, []⟩ : Spool)).2.placed

/-- The message of `ann` is queued. -/
def annDelivery (file : String × Json) : World :=
  { nothingQueued with
    queue := fun n => if n = ofString file.1 then some (.json file.2) else none
    submissions := [⟨annRegistry, [ofString "-s", ofString "Job 17 ended"], annEnviron, file.2⟩] }

theorem reach_annDelivery {file : String × Json} (hfile : file ∈ annPlaced) :
    Locked.Reach (answers asciiPython) (Arounds asciiPython) IsRun nothingQueued
      ⟨annDelivery file, some (processQueue true none)⟩ := by
  have hexec := Exec.of_run fineOutside_answers annProgram ⟨fun _ => none, []⟩
  have haround : Around asciiPython nothingQueued (annDelivery file) :=
    .queues nothingQueued (List.mem_singleton.mpr rfl) hexec hfile
  exact (Relation.ReflTransGen.single (.outside (.single haround))).tail (.start ⟨none, rfl⟩)

/-- The file of `ann`. -/
def annFile : String × Json := annPlaced.headD ("", .null)

theorem annFile_placed : annFile ∈ annPlaced := by
  have hplaced : annPlaced.isEmpty = false := by decide +kernel
  unfold annFile
  cases hfiles : annPlaced with
  | nil =>
    rw [hfiles] at hplaced
    cases hplaced
  | cons file rest => exact List.mem_cons_self

def annFields : Dict :=
  match annFile.2 with
  | .obj fields => fields
  | _ => []

/-- The worker accepts the message; its body is long, so this is not computed. -/
theorem annFile_valid : validateMessage annFile.2 = .ok annFields := by
  have hexec := Exec.of_run fineOutside_answers annProgram ⟨fun _ => none, []⟩
  obtain ⟨m, hcomposed, hm⟩ := queueMessage_composed hexec annFile annFile_placed
  obtain ⟨config, hconfig, -, hregion⟩ := hcomposed.region
  cases hconfig
  obtain ⟨users, husers, htopic, htruthy⟩ := hcomposed.topic
  cases husers
  obtain ⟨config, -, hbody⟩ := hcomposed.body
  obtain ⟨hencoded, hbytes⟩ := sanitizeTitle_byteLength hcomposed.title
  rw [hcomposed.username] at htopic
  obtain ⟨message, hmessage⟩ := valid_messageJson hm hregion (by decide) htopic (by decide) hbytes
    (hbody ▸ buildNotificationBodyForPublish_fits _ hencoded hbytes)
  have hsame := (validateMessage_eq_ok.mp hmessage).1
  rw [hmessage]
  unfold annFields
  rw [hsame]

theorem run_bind {α β : Type} {p : Worker α} {f : α → Worker β} {a : α}
    (h : p.run deliveryOutside w = (.ok a, w')) : (p.bind f).run deliveryOutside w = (f a).run deliveryOutside w' := by
  induction p generalizing w with
  | ret b =>
    cases h
    rfl
  | throw e => cases h
  | call o k ih => exact ih _ h

theorem run_attempt {α : Type} {p : Worker α} {result : Except WorkerError α}
    (h : p.run deliveryOutside w = (result, w')) : p.attempt.run deliveryOutside w = (.ok result, w') := by
  induction p generalizing w with
  | ret b =>
    cases h
    rfl
  | throw e =>
    cases h
    rfl
  | call o k ih => exact ih _ h

theorem run_work (w : World) (call : WorkerCall) : (work call).run deliveryOutside w = deliveryOutside w call := by
  rcases hanswered : deliveryOutside w call with ⟨r, w'⟩
  unfold work Prog.perform Prog.run
  dsimp only
  rw [hanswered]
  cases r <;> rfl

/-- `ann` has a Topic. -/
def annTopics : Dict := [("ann", .str "ocid1.onstopic.ann")]

def annReading (file : String × Json) : World := { annDelivery file with registry := .json (.obj annRegistry) }

theorem run_handles {file : String × Json} {fields : Dict} {progress : Progress} (hname : file.1 = "m1.json")
    (hvalid : validateMessage file.2 = .ok fields)
    (hhandled : (handleMessage none annTopics (ofString "m1.json") fields ⟨0, 0⟩).run deliveryOutside (annReading file) =
      (.ok progress, w)) :
    (processQueue true none).run deliveryOutside (annDelivery file) = (.ok progress.processed, w) := by
  have hqueue : (annReading file).queue (ofString "m1.json") = some (.json file.2) := by
    unfold annReading annDelivery
    dsimp only
    rw [hname]
    exact if_pos rfl
  have hopened : deliveryOutside (annReading file) (.openMessage (ofString "m1.json")) = (.ok file.2, annReading file) := by
    simp only [deliveryOutside, deliveryAnswer, hqueue]
    rfl
  have hread : ((work (.openMessage (ofString "m1.json"))).bind fun content =>
      (.ofExcept (validateMessage content) : Worker Dict)).run deliveryOutside (annReading file) =
        (.ok fields, annReading file) := by
    rw [run_bind ((run_work _ _).trans hopened), hvalid]
    rfl
  have hexamined : (examine none annTopics ⟨0, 0⟩ (ofString "m1.json")).run deliveryOutside (annReading file) =
      (.ok progress, w) := (run_bind (run_attempt hread)).trans hhandled
  have hregistry : (work .readRegistry).run deliveryOutside (annDelivery file) =
      (.ok (.json (.obj annRegistry)), annReading file) := rfl
  have hlisted : queuedMessageNames.run deliveryOutside (annReading file) = (.ok [ofString "m1.json"], annReading file) := rfl
  have hlooped : (Prog.forEach (examine none annTopics) [ofString "m1.json"] ⟨0, 0⟩).run deliveryOutside (annReading file) =
      (.ok progress, w) := run_bind hexamined
  exact (run_bind hregistry).trans ((run_bind hlisted).trans (run_bind hlooped))

/-- The message of `ann` as the worker finds it. -/
def annHandled : Except WorkerError Progress × World :=
  (handleMessage none annTopics (ofString "m1.json") annFields ⟨0, 0⟩).run deliveryOutside (annReading annFile)

/-- What `ann` has of it. -/
theorem privately_delivered_ann :
    (annHandled.2.publications.map fun p => p.request.map (·.topicId)) = [some "ocid1.onstopic.ann"] ∧
      ∀ p ∈ annHandled.2.publications, Private asciiPython annHandled.2 p := by
  have hname : annFile.1 = "m1.json" := by decide +kernel
  have hdone : annHandled.1 = .ok ⟨1, 1⟩ := by decide +kernel
  have hsent : (annHandled.2.publications.map fun p => p.request.map (·.topicId)) = [some "ocid1.onstopic.ann"] := by
    decide +kernel
  rcases hhandled : annHandled with ⟨result, w⟩
  rw [hhandled] at hdone hsent
  obtain rfl : result = .ok ⟨1, 1⟩ := hdone
  have hpasses := Prog.passes_true deliveryOutside (processQueue true none) (annDelivery annFile)
  have hreach := Locked.Reach.of_run (fun _ => true) (I := fun _ => True)
    (fun w call _ _ => ⟨deliveryOutside_answers w call, trivial⟩) trivial hpasses (reach_annDelivery annFile_placed)
  rw [run_handles hname annFile_valid hhandled] at hreach
  exact ⟨hsent, privately_delivered ⟨fun _ => rfl, rfl, rfl⟩ hreach⟩

end OciHpc.Slurm.Delivery
