import Mathlib.Data.List.Basic
import OciHpc.Base.Json
import OciHpc.Base.PyStr

/-!
# Queued notifications

A message file of the spool, as `slurm_oci_notify_worker.py` wants it.

* `WorkerError` : the exceptions the worker tells apart;
* `publishPayloadSize` : the size of a title and a body in a publish request;
* `validateMessage` : the checks of a message; `Valid` : what they come to, `validateMessage_eq_ok`.
-/

namespace OciHpc.Slurm

/-- An exception: a `ValueError`, a `TypeError`, an `OSError`, a `RuntimeError` or a `TimeoutExpired`. -/
inductive WorkerError
  | value (message : String)
  | type (message : String)
  | os (message : String)
  | runtime (message : String)
  | timeout
  deriving DecidableEq, Repr

def maxTitleBytes : Nat := 512

def maxPublishPayloadBytes : Nat := 60 * 1024

/-- `len(json.dumps({"title": title, "body": body}).encode("utf-8"))`, from the lengths of the dumped texts. -/
def payloadSize (titleLength bodyLength : Nat) : Nat :=
  "\x7b\"title\": ".length + titleLength + ", \"body\": ".length + bodyLength + "\x7d".length

def publishPayloadSize (title body : String) : Nat :=
  payloadSize (Json.dumpsStrLength title) (Json.dumpsStrLength body)

/-- `VALID_REGION.match(region)`: its `$` also matches before a newline at the end. -/
def matchesRegion (region : String) : Bool :=
  let body := if region.toList.getLast? = some '\n' then region.toList.dropLast else region.toList
  !body.isEmpty && body.all fun c => ('a' ≤ c && c ≤ 'z') || ('0' ≤ c && c ≤ '9') || c == '-'

/-- `name.endswith(".json")`. -/
def isJsonName (name : String) : Bool := ".json".toList.isSuffixOf name.toList

def isTopicOcid (topicId : String) : Bool := PyStr.startsWith topicId "ocid1.onstopic."

/-- `value == 1`: Python's `True` and `1.0` are. -/
def isOne : Json → Bool
  | .int n => n == 1
  | .bool b => b
  | .float repr => repr == "1.0"
  | _ => false

def isStr : Option Json → Bool
  | some (.str _) => true
  | _ => false

/-- An integer that is no `bool`, and not negative. -/
def isCount : Option Json → Bool
  | some (.int n) => 0 ≤ n
  | _ => false

def textFields : List String := ["id", "region", "topic_id", "username", "job_id", "mail_type", "title", "body"]

def countFields : List String := ["created_at", "expires_at", "next_attempt_at", "attempts"]

def textField (message : Dict) (field : String) : String := (Dict.get? message field).bind Json.str? |>.getD ""

def countField (message : Dict) (field : String) : Int :=
  match Dict.get? message field with
  | some (.int n) => n
  | _ => 0

/-- `if condition: raise ValueError(message)`. -/
def rejectIf (condition : Prop) [Decidable condition] (message : String) : Except WorkerError Unit :=
  if condition then .error (.value message) else .ok ()

def rejectField (fields : List String) (check : Option Json → Bool) (message : Dict) : Except WorkerError Unit :=
  match fields.find? fun field => !check (Dict.get? message field) with
  | some field => .error (.value ("invalid queued notification field '" ++ field ++ "'"))
  | none => .ok ()

def validateMessage (message : Json) : Except WorkerError Dict :=
  match message with
  | .obj message => do
    rejectIf (isOne (Dict.getD message "version" .null) = false) "invalid queued notification schema"
    rejectField textFields isStr message
    rejectField countFields isCount message
    rejectIf (countField message "expires_at" < countField message "created_at")
      "queued notification expires before it was created"
    rejectIf (matchesRegion (textField message "region") = false) "invalid OCI region"
    rejectIf (isTopicOcid (textField message "topic_id") = false) "invalid Notifications topic OCID"
    rejectIf (maxTitleBytes < (textField message "title").utf8ByteSize) "queued notification title is too large"
    rejectIf (maxPublishPayloadBytes < publishPayloadSize (textField message "title") (textField message "body"))
      "queued notification payload is too large"
    return message
  | _ => .error (.value "invalid queued notification schema")

structure Valid (message : Dict) : Prop where
  version : isOne (Dict.getD message "version" .null) = true
  texts : ∀ field ∈ textFields, isStr (Dict.get? message field) = true
  counts : ∀ field ∈ countFields, isCount (Dict.get? message field) = true
  expiry : countField message "created_at" ≤ countField message "expires_at"
  region : matchesRegion (textField message "region") = true
  topic : isTopicOcid (textField message "topic_id") = true
  title : (textField message "title").utf8ByteSize ≤ maxTitleBytes
  payload : publishPayloadSize (textField message "title") (textField message "body") ≤ maxPublishPayloadBytes

theorem rejectIf_bind {α : Type} {condition : Prop} [Decidable condition] {message : String}
    {rest : Except WorkerError α} {a : α} :
    (rejectIf condition message >>= fun _ => rest) = .ok a ↔ ¬ condition ∧ rest = .ok a := by
  unfold rejectIf
  split
  case isTrue h => exact ⟨nofun, fun hno => absurd h hno.1⟩
  case isFalse h => exact ⟨fun hrest => ⟨h, hrest⟩, fun hrest => hrest.2⟩

theorem rejectField_bind {α : Type} {fields : List String} {check : Option Json → Bool} {message : Dict}
    {rest : Except WorkerError α} {a : α} :
    (rejectField fields check message >>= fun _ => rest) = .ok a ↔
      (∀ field ∈ fields, check (Dict.get? message field) = true) ∧ rest = .ok a := by
  unfold rejectField
  split
  case h_1 field hfind =>
    constructor
    · exact nofun
    · rintro ⟨hall, -⟩
      have hbad := List.find?_some hfind
      rw [hall field (List.mem_of_find?_eq_some hfind)] at hbad
      cases hbad
  case h_2 hfind =>
    rw [List.find?_eq_none] at hfind
    constructor
    · intro hrest
      refine ⟨fun field hfield => ?_, hrest⟩
      have hgood := hfind field hfield
      simpa using hgood
    · exact fun hrest => hrest.2

/-- **The checks accept a message exactly if it is valid**, and return it. -/
theorem validateMessage_eq_ok {content : Json} {message : Dict} :
    validateMessage content = .ok message ↔ content = .obj message ∧ Valid message := by
  cases content with
  | obj fields =>
    unfold validateMessage
    dsimp only
    rw [rejectIf_bind, rejectField_bind, rejectField_bind, rejectIf_bind, rejectIf_bind, rejectIf_bind, rejectIf_bind,
      rejectIf_bind]
    constructor
    · rintro ⟨hversion, htexts, hcounts, hexpiry, hregion, htopic, htitle, hpayload, hsame⟩
      cases hsame
      exact ⟨rfl, by simpa using hversion, htexts, hcounts, Int.not_lt.mp hexpiry, by simpa using hregion,
        by simpa using htopic, Nat.not_lt.mp htitle, Nat.not_lt.mp hpayload⟩
    · rintro ⟨hsame, h⟩
      cases hsame
      exact ⟨by simp [h.version], h.texts, h.counts, Int.not_lt.mpr h.expiry, by simp [h.region], by simp [h.topic],
        Nat.not_lt.mpr h.title, Nat.not_lt.mpr h.payload, rfl⟩
  | _ => exact ⟨nofun, fun h => by cases h.1⟩

end OciHpc.Slurm
