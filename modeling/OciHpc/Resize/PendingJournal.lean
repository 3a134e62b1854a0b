import OciHpc.Resize.Calls

/-!
# The journal of pending deletions

The file in which `resize.py` notes a local scratch volume before it removes the node.

* `Record` : a record that passed the checks; `validateRecord` : the checks;
* `encode`, `decode` : a journal as a document;
* `loadPending`, `writePending`, `rememberPending` : the functions on the file;
* `loadPending_encode` : what is written is read back.
-/

namespace OciHpc.Resize
open Prog Files

/-! ## Records -/

def requiredStringKeys : List String :=
  ["cluster_name", "compartment_id", "instance_id", "instance_display_name", "instance_private_ip", "instance_pool_id",
    "volume_id", "volume_display_name"]

/-- An integer that is no `bool`, and at least this. -/
def isIntFrom (least : Int) : Json → Bool
  | .int n => least ≤ n
  | _ => false

/-- `value in [0, 10, 20]`. -/
def isVpus (value : Json) : Bool := Json.asInt? value == some 0 || Json.asInt? value == some 10 || Json.asInt? value == some 20

def invalidRecord (key : String) : String := "The pending local Block Volume deletion record has an invalid " ++ key

/-- The first key that fails its check, in the order of the checks. -/
def invalidKey (fields : Dict) : Option String :=
  (requiredStringKeys.find? fun key => !(Dict.getD fields key .null).nonemptyStr).or
    (if !isIntFrom 50 (Dict.getD fields "size_in_gbs" .null) then some "size_in_gbs"
    else if !isVpus (Dict.getD fields "vpus_per_gb" .null) then some "vpus_per_gb"
    else if !isIntFrom 1 (Dict.getD fields "instance_pool_size_before_removal" .null) then
      some "instance_pool_size_before_removal"
    else none)

structure Record where
  fields : Dict
  valid : invalidKey fields = none

/-- `validate_pending_local_block_volume_deletion_record`. -/
def validateRecord : Json → Except String Record
  | .obj fields =>
      match h : invalidKey fields with
      | none => .ok ⟨fields, h⟩
      | some key => .error (invalidRecord key)
  | _ => .error "The pending local Block Volume deletion record is not an object"

namespace Record

def json (record : Record) : Json := .obj record.fields

/-- `record[key]`, for the keys that hold a text. -/
def text (record : Record) (key : String) : String := ((Dict.getD record.fields key .null).str?).getD ""

/-- `record[key]`, for the keys that hold a number. -/
def int (record : Record) (key : String) : Int := (Json.asInt? (Dict.getD record.fields key .null)).getD 0

def clusterName (record : Record) : String := record.text "cluster_name"

def compartmentId (record : Record) : String := record.text "compartment_id"

def instanceId (record : Record) : String := record.text "instance_id"

def instanceDisplayName (record : Record) : String := record.text "instance_display_name"

def instancePrivateIp (record : Record) : String := record.text "instance_private_ip"

def instancePoolId (record : Record) : String := record.text "instance_pool_id"

def instancePoolSizeBeforeRemoval (record : Record) : Int := record.int "instance_pool_size_before_removal"

def volumeId (record : Record) : String := record.text "volume_id"

def volumeDisplayName (record : Record) : String := record.text "volume_display_name"

def sizeInGbs (record : Record) : Int := record.int "size_in_gbs"

def vpusPerGb (record : Record) : Int := record.int "vpus_per_gb"

/-- `a == b`. -/
def Same (a b : Record) : Prop := Json.SameValue a.json b.json

instance (a b : Record) : Decidable (Same a b) := inferInstanceAs (Decidable (Json.SameValue _ _))

end Record

/-! ## The document -/

/-- `{"version": 1, "deletions": pending_deletions}` as it is written. -/
def encode (pendingDeletions : List Record) : Json :=
  .sortKeys (.obj [("version", .int 1), ("deletions", .arr (pendingDeletions.map Record.json))])

/-- The loop over the records, with the identifiers seen so far. -/
def decodeRecords (seenVolumeIds : List String) : List Json → Except String (List Record)
  | [] => .ok []
  | item :: rest => do
      let record ← validateRecord item
      if record.volumeId ∈ seenVolumeIds then
        .error "The pending local Block Volume deletion file contains a duplicate volume OCID"
      else do
        let others ← decodeRecords (record.volumeId :: seenVolumeIds) rest
        .ok (record :: others)

def decode (document : Json) : Except String (List Record) :=
  match document with
  | .obj fields =>
      match Json.asInt? (Dict.getD fields "version" .null), Dict.getD fields "deletions" .null with
      | some 1, .arr deletions => decodeRecords [] deletions
      | _, _ => .error "The pending local Block Volume deletion file has an invalid format"
  | _ => .error "The pending local Block Volume deletion file has an invalid format"

/-! ## The file -/

abbrev journalFile : Files.Path PendingFile := .named .journal

def decodePending (document : Json) : Prog fileSig CallError (List Record) :=
  match decode document with
  | .error message => .throw (.runtime message)
  | .ok pendingDeletions => .ret pendingDeletions

/-- `load_pending_local_block_volume_deletions`. -/
def loadPending : Prog fileSig CallError (List Record) :=
  (ask (.exists journalFile)).bind fun (present : Bool) =>
    if !present then .ret []
    else
      (ask (.read journalFile)).attempt.bind fun (content : Except CallError (Option Json)) =>
        match content with
        | .error e => .throw (.runtime ("Failed to read pending local Block Volume deletions: " ++ e.text))
        | .ok none => .throw (.runtime "Failed to read pending local Block Volume deletions: invalid JSON")
        | .ok (some document) => decodePending document

/-- `fsync_directory` of the directory of the journal. -/
def fsyncDirectory : Prog fileSig CallError Unit :=
  (ask (.touch "os.open" journalFile)).bind fun _ =>
    withFinally (ask (.touch "os.fsync" journalFile)) (ask (.touch "os.close" journalFile))

/-- What is done to the temporary file before it is renamed. -/
def preparePending (temp : Files.Path PendingFile) : Prog fileSig CallError Unit :=
  (ask (.touch "os.fsync" temp)).bind fun _ =>
    (ask (.touch "os.chmod" temp)).bind fun _ =>
      (ask (.exists (.named .inventory))).bind fun (present : Bool) =>
        if present then
          (ask (.touch "os.stat" (.named .inventory))).bind fun _ =>
            chown CallError.isPermission temp (.named .inventory)
        else .ret ()

/-- `write_pending_local_block_volume_deletions` up to the rename or the removal of the file; `true` where the directory
has changed. -/
def commitPending (pendingDeletions : List Record) : Prog fileSig CallError Bool :=
  if pendingDeletions.isEmpty then (ask (.unlink journalFile)).bind fun (present : Bool) => .ret present
  else (replaceFile .journal (some (encode pendingDeletions)) preparePending).bind fun _ => .ret true

/-- `write_pending_local_block_volume_deletions`. -/
def writePending (pendingDeletions : List Record) : Prog fileSig CallError Unit :=
  (commitPending pendingDeletions).bind fun changed => if changed then fsyncDirectory else .ret ()

def storedRecord (pendingDeletions : List Record) (volumeId : String) : Option Record :=
  pendingDeletions.find? fun record => record.volumeId == volumeId

/-- `remember_pending_local_block_volume_deletion`. -/
def rememberPending (record : Record) : Prog fileSig CallError Unit :=
  loadPending.bind fun pendingDeletions =>
    match storedRecord pendingDeletions record.volumeId with
    | some existing =>
        if existing.Same record then .ret ()
        else .throw (.runtime "The pending local Block Volume deletion record changed unexpectedly")
    | none => writePending (pendingDeletions ++ [record])

/-! ## What is written is read back -/

theorem isIntFrom_sortKeys (least : Int) (value : Json) : isIntFrom least (Json.sortKeys value) = isIntFrom least value := by
  cases value <;> rfl

def writtenFields (fields : Dict) : Dict := Json.sortFields (Json.normalFields id fields)

theorem invalidKey_writtenFields (fields : Dict) : invalidKey (writtenFields fields) = invalidKey fields := by
  simp only [invalidKey, writtenFields, Json.getD_sortKeys, Json.nonemptyStr_sortKeys, isIntFrom_sortKeys, isVpus,
    Json.asInt?_sortKeys]
  rfl

def Record.written (record : Record) : Record :=
  ⟨writtenFields record.fields, (invalidKey_writtenFields record.fields).trans record.valid⟩

theorem Record.json_written (record : Record) : record.written.json = .sortKeys record.json := by
  rw [Record.json, Record.json, Json.sortKeys, Json.normal]
  rfl

theorem Record.same_written (record : Record) : record.written.Same record := by
  rw [Record.Same, Record.json_written]
  exact Json.sameValue_sortKeys record.json

theorem Record.volumeId_written (record : Record) : record.written.volumeId = record.volumeId := by
  rw [Record.volumeId, Record.volumeId, Record.text, Record.text]
  show ((Dict.getD (writtenFields record.fields) "volume_id" .null).str?).getD "" = _
  rw [writtenFields, Json.getD_sortKeys, Json.str?_sortKeys]

theorem validateRecord_json (record : Record) : validateRecord record.json = .ok record := by
  rw [Record.json, validateRecord]
  split
  · rfl
  · rename_i hkey
    rw [record.valid] at hkey
    cases hkey

theorem decodeRecords_json {seen : List String} {records : List Record}
    (hseen : ∀ record ∈ records, record.volumeId ∉ seen) (hdistinct : (records.map (·.volumeId)).Nodup) :
    decodeRecords seen (records.map Record.json) = .ok records := by
  induction records generalizing seen with
  | nil => rfl
  | cons record rest ih =>
    rw [List.map_cons, List.nodup_cons] at hdistinct
    have hrest : decodeRecords (record.volumeId :: seen) (rest.map Record.json) = .ok rest := by
      refine ih (fun other hother hmem => ?_) hdistinct.2
      rcases List.mem_cons.mp hmem with heq | hmem
      · exact hdistinct.1 (heq ▸ List.mem_map_of_mem hother)
      · exact hseen other (List.mem_cons_of_mem _ hother) hmem
    show (validateRecord record.json >>= _) = _
    rw [validateRecord_json]
    show (if record.volumeId ∈ seen then _ else _) = _
    rw [if_neg (hseen record List.mem_cons_self), hrest]
    rfl

/-- **What is written is read back**, with the fields of the records in order. -/
theorem decode_encode {records : List Record} (hdistinct : (records.map (·.volumeId)).Nodup) :
    decode (encode records) = .ok (records.map Record.written) := by
  have hids : ((records.map Record.written).map (·.volumeId)) = records.map (·.volumeId) := by
    rw [List.map_map]
    exact List.map_congr_left fun record _ => record.volumeId_written
  have hdocument : encode records =
      .obj [("deletions", .arr ((records.map Record.written).map Record.json)), ("version", .int 1)] := by
    have hitems : Json.normalItems id (records.map Record.json) = (records.map Record.written).map Record.json := by
      rw [Json.normalItems_eq, List.map_map, List.map_map]
      exact List.map_congr_left fun record _ => record.json_written.symm
    have horder : ¬ "version" ≤ "deletions" := by decide
    rw [encode, Json.sortKeys, Json.normal, Json.normalFields, Json.normalFields, Json.normalFields, Json.normal,
      Json.normal, hitems, id, Json.sortFields, List.insertionSort_cons, List.insertionSort_cons,
      List.insertionSort_nil, List.orderedInsert_nil, List.orderedInsert_cons, if_neg horder, List.orderedInsert_nil]
  rw [hdocument]
  exact decodeRecords_json (fun _ _ => List.not_mem_nil) (hids ▸ hdistinct)

theorem forall₂_written (records : List Record) : List.Forall₂ Record.Same (records.map Record.written) records := by
  induction records with
  | nil => exact .nil
  | cons record rest ih => exact .cons record.same_written ih

theorem nodup_of_decodeRecords {items : List Json} {seen : List String} {records : List Record}
    (h : decodeRecords seen items = .ok records) :
    (records.map (·.volumeId)).Nodup ∧ ∀ record ∈ records, record.volumeId ∉ seen := by
  induction items generalizing seen records with
  | nil =>
    cases h
    exact ⟨List.nodup_nil, fun _ hmem => absurd hmem List.not_mem_nil⟩
  | cons item rest ih =>
    obtain ⟨record, -, h⟩ := bind_eq_ok h
    split at h
    · cases h
    · rename_i hnew
      obtain ⟨others, hothers, h⟩ := bind_eq_ok h
      cases h
      obtain ⟨hnodup, hseen⟩ := ih hothers
      refine ⟨List.nodup_cons.mpr ⟨fun hmem => ?_, hnodup⟩, fun other hother => ?_⟩
      · obtain ⟨other, hother, heq⟩ := List.mem_map.mp hmem
        exact hseen other hother (heq ▸ List.mem_cons_self)
      · rcases List.mem_cons.mp hother with rfl | hother
        · exact hnew
        · exact fun hmem => hseen other hother (List.mem_cons_of_mem _ hmem)

theorem nodup_of_decode {document : Json} {records : List Record} (h : decode document = .ok records) :
    (records.map (·.volumeId)).Nodup := by
  unfold decode at h
  split at h
  · split at h
    · exact (nodup_of_decodeRecords h).1
    · cases h
  · cases h

/-! ## The functions on the file -/

def journalOf (d : PendingDisk) : Option (List Record) :=
  match d journalFile with
  | none => some []
  | some none => none
  | some (some document) => (decode document).toOption

/-- The journal holds these records, and the other files are as they were. -/
def Written (d : PendingDisk) (pendingDeletions : List Record) (d' : PendingDisk) : Prop :=
  SameNamed (Function.update d journalFile (if pendingDeletions.isEmpty then none else some (some (encode pendingDeletions)))) d'

theorem journalOf_of_sameNamed {d d' : PendingDisk} (h : SameNamed d d') : journalOf d' = journalOf d := by
  rw [journalOf, journalOf, h .journal]

/-- **The loader reads what was written.** -/
theorem journalOf_of_written {d d' : PendingDisk} {pendingDeletions : List Record} (h : Written d pendingDeletions d')
    (hdistinct : (pendingDeletions.map (·.volumeId)).Nodup) :
    journalOf d' = some (pendingDeletions.map Record.written) := by
  rw [journalOf, h .journal, Function.update_self]
  cases pendingDeletions with
  | nil => rfl
  | cons record rest =>
    show (decode (encode (record :: rest))).toOption = _
    rw [decode_encode hdistinct]
    rfl

theorem nodup_of_journalOf {d : PendingDisk} {pendingDeletions : List Record} (h : journalOf d = some pendingDeletions) :
    (pendingDeletions.map (·.volumeId)).Nodup := by
  unfold journalOf at h
  split at h
  · cases h
    exact List.nodup_nil
  · cases h
  · rename_i document _
    cases hdecode : decode document with
    | error e =>
      rw [hdecode] at h
      cases h
    | ok records =>
      rw [hdecode] at h
      cases h
      exact nodup_of_decode hdecode

/-- The loader only looks. -/
theorem loadPending_spec (d : PendingDisk) :
    wp step loadPending ⟨fun pending d' => d' = d ∧ journalOf d = some pending, fun _ d' => d' = d, fun d' => d' = d⟩ d := by
  refine wp_perform_seq rfl (fun present d' hstep => ?_) fun e d' hstep => hstep
  obtain ⟨hpresent, rfl⟩ := hstep
  cases hfile : d' journalFile with
  | none =>
    rw [hpresent, hfile]
    exact ⟨rfl, by rw [journalOf, hfile]⟩
  | some content =>
    rw [hpresent, hfile]
    refine wp_perform_attempt_seq rfl fun answer d'' hread => ?_
    cases answer with
    | error e => exact hread
    | ok found =>
      obtain ⟨hfound, rfl⟩ := hread
      obtain rfl := Option.some.inj (hfile.symm.trans hfound)
      cases content with
      | none => exact rfl
      | some document =>
        show wp step (decodePending document) _ d''
        unfold decodePending
        split
        · exact rfl
        · rename_i pending hdecode
          refine ⟨rfl, ?_⟩
          rw [journalOf, hfile]
          show (decode document).toOption = _
          rw [hdecode]
          rfl

/-- The loader accepts a file that it makes something of. -/
theorem exec_loadPending {d : PendingDisk} {pendingDeletions : List Record} (h : journalOf d = some pendingDeletions) :
    Exec step loadPending d (.done pendingDeletions) d := by
  unfold journalOf at h
  split at h
  · rename_i hfile
    cases h
    exact .call (show step d (.exists journalFile) (.ok false) d from ⟨by rw [hfile]; rfl, rfl⟩) .ret
  · cases h
  · rename_i document hfile
    refine .call (show step d (.exists journalFile) (.ok true) d from ⟨by rw [hfile]; rfl, rfl⟩) ?_
    refine .call (show step d (.read journalFile) (.ok (some document)) d from ⟨hfile, rfl⟩) ?_
    cases hdecode : decode document with
    | error e =>
      rw [hdecode] at h
      cases h
    | ok records =>
      rw [hdecode] at h
      cases h
      show Exec step (decodePending document) d (.done pendingDeletions) d
      rw [decodePending, hdecode]
      exact .ret

theorem calls_preparePending (temp : Files.Path PendingFile) : (preparePending temp).Calls Call.Harmless := by
  refine Calls.bind (calls_perform trivial) fun _ => ?_
  refine Calls.bind (calls_perform trivial) fun _ => ?_
  refine Calls.bind (calls_perform trivial) fun present => ?_
  split
  · exact Calls.bind (calls_perform trivial) fun _ => calls_chown CallError.isPermission temp (.named .inventory)
  · exact trivial

theorem calls_fsyncDirectory : fsyncDirectory.Calls Call.Harmless := by
  refine Calls.bind (calls_perform trivial) fun _ => ?_
  refine (calls_perform trivial).attempt.bind fun result => ?_
  exact Calls.bind (calls_perform trivial) fun _ => calls_ofExcept ..

/-- **Up to the rename the old journal stands.** -/
theorem commitPending_spec (pendingDeletions : List Record) (d : PendingDisk) :
    wp step (commitPending pendingDeletions)
      ⟨fun _ => Written d pendingDeletions, fun _ => SameNamed d, SameNamed d⟩ d := by
  unfold commitPending
  split
  · rename_i hempty
    refine wp_perform_seq (SameNamed.refl d) (fun present d' hstep => ?_) fun e d' hstep => ?_
    · show Written d pendingDeletions d'
      unfold Written
      rw [if_pos hempty, hstep.2]
      exact SameNamed.refl _
    · rw [show d' = d from hstep]
      exact SameNamed.refl d
  · rename_i hnonempty
    refine wp_seq (replaceFile_spec calls_preparePending d) fun _ d' hreplaced => ?_
    show Written d pendingDeletions d'
    unfold Written
    rw [if_neg hnonempty]
    exact hreplaced

/-- **The writer leaves the new journal**, or the old one where it does not return. -/
theorem writePending_spec (pendingDeletions : List Record) (d : PendingDisk) :
    wp step (writePending pendingDeletions)
      ⟨fun _ => Written d pendingDeletions, fun _ d' => SameNamed d d' ∨ Written d pendingDeletions d',
        fun d' => SameNamed d d' ∨ Written d pendingDeletions d'⟩ d := by
  refine wp_seq (R := fun _ => Written d pendingDeletions)
    (wp_mono (commitPending_spec pendingDeletions d) (fun _ _ h => h) (fun _ _ h => .inl h) fun _ h => .inl h)
    fun changed d' hwritten => ?_
  split
  · refine wp_mono (keeps_of_harmless calls_fsyncDirectory d' d' rfl) (fun _ _ h => ?_) (fun _ _ h => ?_) fun _ h => ?_
    · exact h ▸ hwritten
    · exact h ▸ .inr hwritten
    · exact h ▸ .inr hwritten
  · exact hwritten

/-- What a record comes to: it is stored already and nothing changes, or it is written after the others. -/
def Remembered (d : PendingDisk) (record : Record) (d' : PendingDisk) : Prop :=
  ∃ pending, journalOf d = some pending ∧
    ((∃ existing, storedRecord pending record.volumeId = some existing ∧ existing.Same record ∧ d' = d) ∨
      (storedRecord pending record.volumeId = none ∧ Written d (pending ++ [record]) d'))

/-- **A record is remembered, or the journal stands.** -/
theorem rememberPending_spec (record : Record) (d : PendingDisk) :
    wp step (rememberPending record)
      ⟨fun _ => Remembered d record, fun _ d' => SameNamed d d' ∨ Remembered d record d',
        fun d' => SameNamed d d' ∨ Remembered d record d'⟩ d := by
  refine wp_seq (R := fun pending d' => d' = d ∧ journalOf d = some pending)
    (wp_mono (loadPending_spec d) (fun _ _ h => h) (fun _ _ h => ?_) fun _ h => ?_) fun pending d' hload => ?_
  · exact .inl (h ▸ SameNamed.refl d)
  · exact .inl (h ▸ SameNamed.refl d)
  · obtain ⟨rfl, hpending⟩ := hload
    cases hstored : storedRecord pending record.volumeId with
    | some existing =>
      dsimp only
      split
      · rename_i hsame
        exact ⟨pending, hpending, .inl ⟨existing, hstored, hsame, rfl⟩⟩
      · exact .inl (SameNamed.refl d')
    | none =>
      have hremembered : ∀ d'', Written d' (pending ++ [record]) d'' → Remembered d' record d'' :=
        fun d'' h => ⟨pending, hpending, .inr ⟨hstored, h⟩⟩
      exact wp_mono (writePending_spec (pending ++ [record]) d') (fun _ d'' h => hremembered d'' h)
        (fun _ d'' h => h.imp id (hremembered d'')) fun d'' h => h.imp id (hremembered d'')

theorem nodup_append_of_new {pending : List Record} {record : Record} (hdistinct : (pending.map (·.volumeId)).Nodup)
    (hnew : storedRecord pending record.volumeId = none) : ((pending ++ [record]).map (·.volumeId)).Nodup := by
  rw [List.map_append, List.map_singleton]
  refine hdistinct.append (List.nodup_singleton _) fun id hid hrecord => ?_
  rw [List.mem_singleton] at hrecord
  obtain ⟨other, hother, heq⟩ := List.mem_map.mp hid
  exact List.find?_eq_none.mp hnew other hother (beq_iff_eq.mpr (heq.trans hrecord))

/-- What is remembered is accepted by the loader. -/
theorem journalOf_of_remembered {d d' : PendingDisk} {record : Record} (h : Remembered d record d') :
    ∃ pending, journalOf d' = some pending := by
  obtain ⟨pending, hpending, ⟨existing, -, -, rfl⟩ | ⟨hnew, hwritten⟩⟩ := h
  · exact ⟨pending, hpending⟩
  · exact ⟨_, journalOf_of_written hwritten (nodup_append_of_new (nodup_of_journalOf hpending) hnew)⟩

end OciHpc.Resize
