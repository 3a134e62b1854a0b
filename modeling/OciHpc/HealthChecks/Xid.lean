import OciHpc.Base.Dictionary
import OciHpc.Base.LazyMatch
import OciHpc.Base.Words

/-!
# Xid errors of the GPUs

* `xidEc` : the codes `xid_checker.py` knows;
* `checkGpuXid` : the check, from the output of `dmesg`;
* `XidLine`, `xidOf` : a line that reports a code on a device;
* `Clean`, `Unambiguous` : the lines in which nothing else can be taken for such a report;
* `countsRight_iff` : the check counts each line once, under its own code, just in these texts.
-/

namespace OciHpc.HealthChecks

/-! ## The codes -/

inductive Severity
  | critical | warn
  deriving DecidableEq, Repr

structure XidEntry where
  code : String
  description : String
  severity : Severity
  deriving Repr

def xidEc : List XidEntry := [
  ⟨"1", "Invalid or corrupted push buffer stream", .critical⟩,
  ⟨"2", "Invalid or corrupted push buffer stream", .critical⟩,
  ⟨"3", "Invalid or corrupted push buffer stream", .critical⟩,
  ⟨"4", "Invalid or corrupted push buffer stream", .critical⟩,
  ⟨"5", "Unused", .critical⟩,
  ⟨"6", "Invalid or corrupted push buffer stream", .critical⟩,
  ⟨"7", "Invalid or corrupted push buffer address", .critical⟩,
  ⟨"8", "GPU stopped processing", .critical⟩,
  ⟨"9", "Driver error programming GPU", .critical⟩,
  ⟨"10", "Unused", .critical⟩,
  ⟨"11", "Invalid or corrupted push buffer stream", .critical⟩,
  ⟨"12", "Driver error handling GPU exception", .critical⟩,
  ⟨"13", "Graphics Engine Exception", .critical⟩,
  ⟨"14", "Unused", .warn⟩,
  ⟨"15", "Unused", .warn⟩,
  ⟨"16", "Display engine hung", .warn⟩,
  ⟨"17", "Unused", .warn⟩,
  ⟨"18", "Bus mastering disabled in PCI Config Space", .warn⟩,
  ⟨"19", "Display Engine error", .warn⟩,
  ⟨"20", "Invalid or corrupted Mpeg push buffer", .warn⟩,
  ⟨"21", "Invalid or corrupted Motion Estimation push buffer", .warn⟩,
  ⟨"22", "Invalid or corrupted Video Processor push buffer", .warn⟩,
  ⟨"23", "Unused", .warn⟩,
  ⟨"24", "GPU semaphore timeout", .warn⟩,
  ⟨"25", "Invalid or illegal push buffer stream", .warn⟩,
  ⟨"26", "Framebuffer timeout", .warn⟩,
  ⟨"27", "Video processor exception", .warn⟩,
  ⟨"28", "Video processor exception", .warn⟩,
  ⟨"29", "Video processor exception", .warn⟩,
  ⟨"30", "GPU semaphore access error", .warn⟩,
  ⟨"31", "GPU memory page fault", .critical⟩,
  ⟨"32", "Invalid or corrupted push buffer stream", .warn⟩,
  ⟨"33", "Internal micro-controller error", .warn⟩,
  ⟨"34", "Video processor exception", .warn⟩,
  ⟨"35", "Video processor exception", .warn⟩,
  ⟨"36", "Video processor exception", .warn⟩,
  ⟨"37", "Driver firmware error", .warn⟩,
  ⟨"38", "Driver firmware error", .warn⟩,
  ⟨"39", "Unused", .warn⟩,
  ⟨"40", "Unused", .warn⟩,
  ⟨"41", "Unused", .warn⟩,
  ⟨"42", "Video processor exception", .warn⟩,
  ⟨"43", "GPU stopped processing", .warn⟩,
  ⟨"44", "Graphics Engine fault during context switch", .warn⟩,
  ⟨"45", "Preemptive cleanup, due to previous errors -- Most likely to see when running multiple cuda applications and hitting a DBE", .warn⟩,
  ⟨"46", "GPU stopped processing", .warn⟩,
  ⟨"47", "Video processor exception", .warn⟩,
  ⟨"48", "Double Bit ECC Error", .critical⟩,
  ⟨"49", "Unused", .warn⟩,
  ⟨"50", "Unused", .warn⟩,
  ⟨"51", "Unused", .warn⟩,
  ⟨"52", "Unused", .warn⟩,
  ⟨"53", "Unused", .warn⟩,
  ⟨"54", "Auxiliary power is not connected to the GPU board", .warn⟩,
  ⟨"55", "Unused", .warn⟩,
  ⟨"56", "Display Engine error", .critical⟩,
  ⟨"57", "Error programming video memory interface", .critical⟩,
  ⟨"58", "Unstable video memory interface detected", .critical⟩,
  ⟨"59", "Internal micro-controller error (older drivers)", .warn⟩,
  ⟨"60", "Video processor exception", .warn⟩,
  ⟨"61", "Internal micro-controller breakpoint/warning (newer drivers)", .warn⟩,
  ⟨"62", "Internal micro-controller halt", .critical⟩,
  ⟨"63", "ECC page retirement or row remapping recording event", .critical⟩,
  ⟨"64", "ECC page retirement or row remapper recording failure", .critical⟩,
  ⟨"65", "Video processor exception", .critical⟩,
  ⟨"66", "Illegal access by driver", .warn⟩,
  ⟨"67", "Illegal access by driver", .warn⟩,
  ⟨"68", "NVDEC0 Exception", .critical⟩,
  ⟨"69", "Graphics Engine class error", .critical⟩,
  ⟨"70", "CE3: Unknown Error", .warn⟩,
  ⟨"71", "CE4: Unknown Error", .warn⟩,
  ⟨"72", "CE5: Unknown Error", .warn⟩,
  ⟨"73", "NVENC2 Error", .critical⟩,
  ⟨"74", "NVLINK Error", .critical⟩,
  ⟨"75", "CE6: Unknown Error", .warn⟩,
  ⟨"76", "CE7: Unknown Error", .warn⟩,
  ⟨"77", "CE8: Unknown Error", .warn⟩,
  ⟨"78", "vGPU Start Error", .warn⟩,
  ⟨"79", "GPU has fallen off the bus", .critical⟩,
  ⟨"80", "Corrupted data sent to GPU", .critical⟩,
  ⟨"81", "VGA Subsystem Error", .critical⟩,
  ⟨"82", "NVJPGO Error", .warn⟩,
  ⟨"83", "NVDEC1 Error", .warn⟩,
  ⟨"84", "NVDEC2 Error", .warn⟩,
  ⟨"85", "CE9: Unknown Error", .warn⟩,
  ⟨"86", "OFA Exception", .warn⟩,
  ⟨"87", "Reserved", .warn⟩,
  ⟨"88", "NVDEC3 Error", .warn⟩,
  ⟨"89", "NVDEC4 Error", .warn⟩,
  ⟨"90", "Reserved", .warn⟩,
  ⟨"91", "Reserved", .warn⟩,
  ⟨"92", "High single-bit ECC error rate", .critical⟩,
  ⟨"93", "Non-fatal violation of provisioned InfoROM wear limit", .warn⟩,
  ⟨"94", "Contained ECC error", .critical⟩,
  ⟨"95", "Uncontained ECC error", .critical⟩,
  ⟨"96", "NVDEC5 Error", .warn⟩,
  ⟨"97", "NVDEC6 Error", .warn⟩,
  ⟨"98", "NVDEC7 Error", .warn⟩,
  ⟨"99", "NVJPG1 Error", .warn⟩,
  ⟨"100", "NVJPG2 Error", .warn⟩,
  ⟨"101", "NVJPG3 Error", .warn⟩,
  ⟨"102", "NVJPG4 Error", .warn⟩,
  ⟨"103", "NVJPG5 Error", .warn⟩,
  ⟨"104", "NVJPG6 Error", .warn⟩,
  ⟨"105", "NVJPG7 Error", .warn⟩,
  ⟨"106", "SMBPBI Test Message", .warn⟩,
  ⟨"107", "SMBPBI Test Message Silent", .warn⟩,
  ⟨"108", "Reserved", .warn⟩,
  ⟨"109", "Context Switch Timeout Error", .critical⟩,
  ⟨"110", "Security Fault Error", .warn⟩,
  ⟨"111", "Display Bundle Error Event", .warn⟩,
  ⟨"112", "Display Supervisor Error", .warn⟩,
  ⟨"113", "DP Link Training Error", .warn⟩,
  ⟨"114", "Display Pipeline Underflow Error", .warn⟩,
  ⟨"115", "Display Core Channel Error", .warn⟩,
  ⟨"116", "Display Window Channel Error", .warn⟩,
  ⟨"117", "Display Cursor Channel Error", .warn⟩,
  ⟨"118", "Display Pixel Pipeline Error", .warn⟩,
  ⟨"119", "GSP RPC Timeout", .critical⟩,
  ⟨"120", "GSP Error", .critical⟩,
  ⟨"121", "C2C Link Error", .critical⟩,
  ⟨"122", "SPI PMU RPC Read Failure", .warn⟩,
  ⟨"123", "SPI PMU RPC Write Failure", .warn⟩,
  ⟨"124", "SPI PMU RPC Erase Failure", .warn⟩,
  ⟨"125", "Inforom FS Failure", .warn⟩,
  ⟨"126", "Reserved", .warn⟩,
  ⟨"127", "Reserved", .warn⟩,
  ⟨"128", "Reserved", .warn⟩,
  ⟨"129", "Reserved", .warn⟩,
  ⟨"130", "Reserved", .warn⟩,
  ⟨"131", "Reserved", .warn⟩,
  ⟨"132", "Reserved", .warn⟩,
  ⟨"133", "Reserved", .warn⟩,
  ⟨"134", "Reserved", .warn⟩,
  ⟨"135", "Reserved", .warn⟩,
  ⟨"136", "Reserved", .warn⟩,
  ⟨"137", "Reserved", .warn⟩,
  ⟨"138", "Reserved", .warn⟩,
  ⟨"139", "Reserved", .warn⟩,
  ⟨"140", "Unrecovered ECC Error", .warn⟩,
  ⟨"141", "Reserved", .warn⟩,
  ⟨"142", "Reserved", .warn⟩,
  ⟨"143", "GPU Initialization Failure", .warn⟩]

/-! ## The check -/

abbrev Text := List Char

/-- The pattern up to its group, with the backslash taken off. -/
def header : Text := "NVRM: Xid (PCI:".toList

def stopOf (code : Text) : Text := ':' :: ' ' :: (code ++ [','])

/-- `re.findall(f"NVRM: Xid \\(PCI:(.*?): \x7bXID\x7d,", dmesg_output)`. -/
def matchesOf (code dmesgOutput : Text) : List Text := findall header (stopOf code) dmesgOutput

/-- `tmp_dict`. -/
def tally (found : List Text) : List (Text × Nat) :=
  found.foldl (fun counts device => setKey device ((counts.lookup device).getD 0 + 1) counts) []

structure XidResult where
  results : List (Text × Nat)
  description : String
  deriving DecidableEq

structure XidReport where
  status : String
  results : List (Text × XidResult)
  deriving DecidableEq

def checkCode (dmesgOutput : Text) (report : XidReport) (entry : XidEntry) : XidReport :=
  let tmpDict := tally (matchesOf entry.code.toList dmesgOutput)
  if tmpDict ≠ [] then
    { status := if entry.severity = .critical then "Failed" else report.status
      results := setKey entry.code.toList ⟨tmpDict, entry.description⟩ report.results }
  else report

/-- `check_gpu_xid` of a new `XidChecker`. -/
def checkGpuXid (dmesgOutput : Text) : XidReport :=
  if PyStr.hasInfix "NVRM: Xid".toList dmesgOutput then xidEc.foldl (checkCode dmesgOutput) ⟨"Pass", []⟩
  else ⟨"Pass", []⟩

/-! ## Lines that report an Xid -/

def codes : List Text := xidEc.map fun entry => entry.code.toList

/-- The address of a device has neither a closing parenthesis nor a space. -/
def isDeviceChar (c : Char) : Bool := c != ')' && c != ' '

/-- The line has the form `NVRM: Xid (PCI:<device>): <code>, <anything>` from its first `NVRM: Xid (PCI:` on. -/
structure XidLine (line device code : Text) : Prop where
  known : code ∈ codes
  plain : device.all isDeviceChar = true
  form : ∃ rest, afterHeader header line = some (device ++ ')' :: (stopOf code ++ ' ' :: rest))

def xidOf (line : Text) : Option (Text × Text) :=
  match afterHeader header line with
  | none => none
  | some tail =>
    let device := tail.takeWhile isDeviceChar
    let code := (tail.drop (device.length + 3)).takeWhile Char.isDigit
    if code ∈ codes ∧ (device ++ ')' :: (stopOf code ++ [' '])).isPrefixOf tail then some (device, code) else none

/-- The key under which a device is counted: the group ends before the colon. -/
def deviceKey (device : Text) : Text := device ++ [')']

/-- The lines of a text that report a code on a device. -/
def lineCount (dmesgOutput code key : Text) : Nat :=
  ((textLines dmesgOutput).filterMap xidOf).countP fun xid => xid.2 = code ∧ deviceKey xid.1 = key

def XidReport.count (report : XidReport) (code key : Text) : Nat :=
  ((report.results.lookup code).bind fun result => result.results.lookup key).getD 0

/-- Each line counts once, under its own code and device, and the status is that of the reported codes. -/
def CountsRight (dmesgOutput : Text) : Prop :=
  (∀ code ∈ codes, ∀ key, (checkGpuXid dmesgOutput).count code key = lineCount dmesgOutput code key) ∧
    ((checkGpuXid dmesgOutput).status = "Failed" ↔ ∃ line ∈ textLines dmesgOutput, ∃ device, ∃ entry ∈ xidEc,
      entry.severity = .critical ∧ XidLine line device entry.code.toList)

/-- After the first `NVRM: Xid (PCI:` of the line, a colon, a known code and a comma stand only where the line has the
form, and not after a second `NVRM: Xid (PCI:`. -/
def Clean (line : Text) : Prop :=
  ∀ tail, afterHeader header line = some tail → ∀ code ∈ codes, stopOf code <:+: tail →
    ∃ device rest, device.all isDeviceChar = true ∧ tail = device ++ ')' :: (stopOf code ++ ' ' :: rest) ∧
      ∀ later, afterHeader header (' ' :: rest) = some later → ¬ stopOf code <:+: later

def Unambiguous (dmesgOutput : Text) : Prop := ∀ line ∈ textLines dmesgOutput, Clean line

/-! ## The codes are numbers -/

theorem codes_eq : xidEc.map (·.code) = (List.range' 1 143).map Nat.repr := by decide +kernel

theorem codes_eq_repr : codes = (List.range' 1 143).map fun n => (Nat.repr n).toList := by
  have h := congrArg (List.map String.toList) codes_eq
  rw [List.map_map, List.map_map] at h
  exact h

theorem nodup_codes : codes.Nodup := by
  rw [codes_eq_repr]
  refine List.Nodup.map (fun m n hsame => ?_) (List.nodup_range' 1)
  have hint := congrArg PyStr.int hsame
  rw [PyStr.int_repr, PyStr.int_repr] at hint
  exact Int.ofNat.inj (Option.some.inj hint)

theorem codes_digits : codes.all (fun code => code.all Char.isDigit) = true := by decide +kernel

theorem isDigit_of_mem_codes {code : Text} (h : code ∈ codes) : ∀ c ∈ code, c.isDigit = true :=
  List.all_eq_true.mp (List.all_eq_true.mp codes_digits code h)

theorem header_ne : header ≠ [] := by decide

theorem newline_not_mem_header : '\n' ∉ header := by decide

theorem stopOf_ne (code : Text) : stopOf code ≠ [] := List.cons_ne_nil _ _

theorem newline_not_mem_stopOf {code : Text} (h : code ∈ codes) : '\n' ∉ stopOf code := by
  intro hmem
  unfold stopOf at hmem
  simp only [List.mem_cons, List.mem_append, List.not_mem_nil, or_false] at hmem
  rcases hmem with hmem | hmem | hmem | hmem
  · exact absurd hmem (by decide)
  · exact absurd hmem (by decide)
  · exact absurd (isDigit_of_mem_codes h _ hmem) (by decide)
  · exact absurd hmem (by decide)

/-! ## The form of a line -/

theorem takeWhile_device {device : Text} (h : device.all isDeviceChar = true) (rest : Text) :
    (device ++ ')' :: rest).takeWhile isDeviceChar = device := by
  rw [List.takeWhile_append_of_pos (List.all_eq_true.mp h), List.takeWhile_cons_of_neg (by decide), List.append_nil]

theorem xidOf_eq_some {line device code : Text} : xidOf line = some (device, code) ↔ XidLine line device code := by
  constructor
  · intro h
    unfold xidOf at h
    split at h
    · cases h
    · rename_i tail htail
      dsimp only at h
      split at h
      case isFalse => cases h
      case isTrue hform =>
        cases h
        obtain ⟨rest, hrest⟩ := List.isPrefixOf_iff_prefix.mp hform.2
        refine ⟨hform.1, List.all_eq_true.mpr fun c hc => List.mem_takeWhile_imp hc, rest, ?_⟩
        rw [htail, Option.some.injEq]
        conv_lhs => rw [← hrest]
        simp only [List.append_assoc, List.cons_append, List.nil_append]
  · rintro ⟨hknown, hdevice, rest, htail⟩
    have hcode : (code ++ ',' :: ' ' :: rest).takeWhile Char.isDigit = code := by
      rw [List.takeWhile_append_of_pos (isDigit_of_mem_codes hknown), List.takeWhile_cons_of_neg (by decide),
        List.append_nil]
    have hdrop : (device ++ ')' :: (stopOf code ++ ' ' :: rest)).drop (device.length + 3) = code ++ ',' :: ' ' :: rest := by
      rw [← List.drop_drop, List.drop_left]
      simp [stopOf]
    unfold xidOf
    rw [htail]
    dsimp only
    rw [takeWhile_device hdevice, hdrop, hcode, if_pos]
    refine ⟨hknown, List.isPrefixOf_iff_prefix.mpr ⟨rest, ?_⟩⟩
    simp only [List.append_assoc, List.cons_append, List.nil_append]

/-- The group of a line that reports the code. -/
theorem lazyUntil_device {device : Text} (h : device.all isDeviceChar = true) (hline : '\n' ∉ device) (code rest : Text) :
    lazyUntil (stopOf code) (device ++ ')' :: (stopOf code ++ rest)) = some (deviceKey device) := by
  have hstop : lazyUntil (stopOf code) (')' :: (stopOf code ++ rest)) = some [')'] := by
    have hhere : (stopOf code).isPrefixOf (stopOf code ++ rest) = true :=
      List.isPrefixOf_iff_prefix.mpr (List.prefix_append _ _)
    have hnext : lazyUntil (stopOf code) (stopOf code ++ rest) = some [] := by
      unfold stopOf at hhere ⊢
      rw [List.cons_append] at hhere ⊢
      rw [lazyUntil, if_pos hhere]
    rw [lazyUntil, if_neg (by simp [stopOf, List.isPrefixOf]), if_neg (by decide), hnext]
    rfl
  induction device with
  | nil => exact hstop
  | cons c device ih =>
    rw [List.all_cons, Bool.and_eq_true] at h
    have hnot : (stopOf code).isPrefixOf (c :: (device ++ ')' :: (stopOf code ++ rest))) = false := by
      -- the character after a colon of the address is no space
      cases device with
      | nil => simp [stopOf, List.isPrefixOf]
      | cons d device =>
        have hd : d ≠ ' ' := by
          have hdevice := (Bool.and_eq_true_iff.mp (List.all_cons ▸ h.2)).1
          simpa [isDeviceChar] using (Bool.and_eq_true_iff.mp hdevice).2
        simp [stopOf, List.isPrefixOf, hd.symm]
    have hc : c ≠ '\n' := Ne.symm (List.ne_of_not_mem_cons hline)
    rw [List.cons_append, lazyUntil, hnot, if_neg Bool.false_ne_true, if_neg hc,
      ih h.2 (List.not_mem_of_not_mem_cons hline)]
    rfl

/-! ## The matches of a line -/

/-- The match of a line for its own code. -/
def ownMatches (code line : Text) : List Text :=
  match xidOf line with
  | some (device, code') => if code' = code then [deviceKey device] else []
  | none => []

/-- A line is matched for its own code, and then perhaps again. -/
theorem matchesOf_xidLine {line device code : Text} (hline : '\n' ∉ line) (h : XidLine line device code) :
    ∃ rest, afterHeader header line = some (device ++ ')' :: (stopOf code ++ ' ' :: rest)) ∧
      matchesOf code line = deviceKey device :: matchesOf code (' ' :: rest) := by
  obtain ⟨-, hdevice, rest, htail⟩ := h
  have htail_line := fun hmem => hline ((suffix_of_afterHeader htail).mem hmem)
  have hdevice_line : '\n' ∉ device := fun hmem => htail_line (List.mem_append_left _ hmem)
  refine ⟨rest, htail, ?_⟩
  unfold matchesOf
  rw [findall_of_afterHeader header_ne htail (lazyUntil_device hdevice hdevice_line code _)]
  congr 2
  have hsplit : device ++ ')' :: (stopOf code ++ ' ' :: rest) = (deviceKey device ++ stopOf code) ++ ' ' :: rest := by
    simp [deviceKey]
  rw [hsplit, ← List.length_append, List.drop_left]

theorem exists_extra {line code : Text} (hline : '\n' ∉ line) :
    ∃ extra, matchesOf code line = ownMatches code line ++ extra := by
  unfold ownMatches
  split
  · rename_i device code' hxid
    split
    case isTrue heq =>
      subst heq
      obtain ⟨rest, -, hfound⟩ := matchesOf_xidLine hline (xidOf_eq_some.mp hxid)
      exact ⟨_, hfound⟩
    case isFalse => exact ⟨_, rfl⟩
  · exact ⟨_, rfl⟩

/-- Nothing is found exactly if the code does not follow the first header. -/
theorem matchesOf_eq_nil {line code : Text} (hline : '\n' ∉ line) :
    matchesOf code line = [] ↔ ∀ tail, afterHeader header line = some tail → ¬ stopOf code <:+: tail := by
  constructor
  · intro h tail htail hstop
    have htail_line : '\n' ∉ tail := fun hmem => hline ((suffix_of_afterHeader htail).mem hmem)
    obtain ⟨group, hgroup⟩ := (infix_iff_lazyUntil (stopOf_ne code) htail_line).mp hstop
    unfold matchesOf at h
    rw [findall_of_afterHeader header_ne htail hgroup] at h
    cases h
  · intro h
    cases htail : afterHeader header line with
    | none => exact findall_of_no_header header_ne htail
    | some tail => exact findall_of_no_stop header_ne (stopOf_ne code) hline htail (h tail htail)

theorem clean_iff {line : Text} (hline : '\n' ∉ line) :
    Clean line ↔ ∀ code ∈ codes, matchesOf code line = ownMatches code line := by
  constructor
  · intro h code hcode
    by_cases hnil : matchesOf code line = []
    · obtain ⟨extra, hextra⟩ := @exists_extra line code hline
      rw [hnil] at hextra ⊢
      exact (List.append_eq_nil_iff.mp hextra.symm).1.symm
    · have hstop : ∃ tail, afterHeader header line = some tail ∧ stopOf code <:+: tail := by
        rw [matchesOf_eq_nil hline] at hnil
        push Not at hnil
        exact hnil
      obtain ⟨tail, htail, hstop⟩ := hstop
      obtain ⟨device, rest, hdevice, rfl, hlater⟩ := h tail htail code hcode hstop
      have hxid : XidLine line device code := ⟨hcode, hdevice, rest, htail⟩
      obtain ⟨rest', htail', hfound⟩ := matchesOf_xidLine hline hxid
      have hsame : rest = rest' := by
        have hsplit := Option.some.inj (htail.symm.trans htail')
        simpa using hsplit
      subst hsame
      have hrest_line : '\n' ∉ ' ' :: rest := fun hmem =>
        hline ((suffix_of_afterHeader htail).mem (by simp only [List.mem_append, List.mem_cons] at hmem ⊢; tauto))
      have hrest : matchesOf code (' ' :: rest) = [] := (matchesOf_eq_nil hrest_line).mpr hlater
      rw [hfound, hrest]
      unfold ownMatches
      rw [xidOf_eq_some.mpr hxid]
      exact (if_pos rfl).symm
  · intro h tail htail code hcode hstop
    have hown := h code hcode
    cases hxid : xidOf line with
    | none =>
      have hnil : matchesOf code line = [] := by
        rw [hown]
        unfold ownMatches
        rw [hxid]
      exact absurd hstop ((matchesOf_eq_nil hline).mp hnil tail htail)
    | some xid =>
      obtain ⟨device, code'⟩ := xid
      by_cases hsame : code' = code
      · subst hsame
        obtain ⟨rest, htail', hfound⟩ := matchesOf_xidLine hline (xidOf_eq_some.mp hxid)
        cases htail.symm.trans htail'
        refine ⟨device, rest, (xidOf_eq_some.mp hxid).plain, rfl, ?_⟩
        have hrest_line : '\n' ∉ ' ' :: rest := fun hmem =>
          hline ((suffix_of_afterHeader htail).mem (by simp only [List.mem_append, List.mem_cons] at hmem ⊢; tauto))
        refine (matchesOf_eq_nil hrest_line).mp ?_
        unfold ownMatches at hown
        rw [hxid, hfound] at hown
        simpa using hown
      · have hnil : matchesOf code line = [] := by
          rw [hown]
          unfold ownMatches
          rw [hxid]
          exact if_neg hsame
        exact absurd hstop ((matchesOf_eq_nil hline).mp hnil tail htail)

/-! ## The report -/

theorem lookup_tally (found : List Text) (key : Text) : ((tally found).lookup key).getD 0 = found.count key := by
  have hfold : ∀ (rest : List Text) (counts : List (Text × Nat)),
      ((rest.foldl (fun counts device => setKey device ((counts.lookup device).getD 0 + 1) counts) counts).lookup
        key).getD 0 = (counts.lookup key).getD 0 + rest.count key := by
    intro rest
    induction rest with
    | nil => exact fun counts => rfl
    | cons device rest ih =>
      intro counts
      rw [List.foldl_cons, ih, List.count_cons]
      by_cases hkey : key = device
      · subst hkey
        rw [lookup_setKey_self, Option.getD_some, beq_self_eq_true, if_pos rfl]
        omega
      · rw [lookup_setKey_of_ne hkey, beq_false_of_ne (Ne.symm hkey), if_neg Bool.false_ne_true]
        omega
  have h := hfold found []
  rw [List.lookup_nil, Option.getD_none, Nat.zero_add] at h
  exact h

theorem tally_eq_nil {found : List Text} (h : tally found = []) : found = [] := by
  refine List.eq_nil_iff_forall_not_mem.mpr fun key hmem => ?_
  have hcount := lookup_tally found key
  rw [h, List.lookup_nil, Option.getD_none] at hcount
  exact absurd (List.count_pos_iff.mpr hmem) (by omega)

section
variable {dmesgOutput : Text}

theorem checkCode_eq (report : XidReport) (entry : XidEntry) :
    checkCode dmesgOutput report entry = if matchesOf entry.code.toList dmesgOutput = [] then report else
      { status := if entry.severity = .critical then "Failed" else report.status
        results := setKey entry.code.toList ⟨tally (matchesOf entry.code.toList dmesgOutput), entry.description⟩
          report.results } := by
  unfold checkCode
  by_cases hnil : matchesOf entry.code.toList dmesgOutput = []
  · rw [if_pos hnil, hnil]
    rfl
  · rw [if_neg hnil]
    exact if_pos fun h => hnil (tally_eq_nil h)

theorem lookup_checkCode_of_ne {report : XidReport} {entry : XidEntry} {code : Text} (h : code ≠ entry.code.toList) :
    (checkCode dmesgOutput report entry).results.lookup code = report.results.lookup code := by
  rw [checkCode_eq]
  split
  · rfl
  · exact lookup_setKey_of_ne h _ _

theorem lookup_foldl_of_not_mem {entries : List XidEntry} {code : Text}
    (h : code ∉ entries.map fun entry => entry.code.toList) (report : XidReport) :
    (entries.foldl (checkCode dmesgOutput) report).results.lookup code = report.results.lookup code := by
  induction entries generalizing report with
  | nil => rfl
  | cons entry rest ih =>
    rw [List.map_cons] at h
    rw [List.foldl_cons, ih (List.not_mem_of_not_mem_cons h), lookup_checkCode_of_ne (List.ne_of_not_mem_cons h)]

theorem count_foldl {entries : List XidEntry} (hnodup : (entries.map fun entry => entry.code.toList).Nodup)
    (report : XidReport) (hfresh : ∀ entry ∈ entries, report.results.lookup entry.code.toList = none) {code : Text}
    (hcode : code ∈ entries.map fun entry => entry.code.toList) (key : Text) :
    (entries.foldl (checkCode dmesgOutput) report).count code key = (matchesOf code dmesgOutput).count key := by
  induction entries generalizing report with
  | nil => cases hcode
  | cons entry rest ih =>
    rw [List.map_cons, List.nodup_cons] at hnodup
    rw [List.foldl_cons]
    rcases List.mem_cons.mp hcode with rfl | hrest
    · unfold XidReport.count
      rw [lookup_foldl_of_not_mem hnodup.1, checkCode_eq]
      split
      case isTrue hnil =>
        rw [hfresh entry List.mem_cons_self, hnil]
        rfl
      case isFalse =>
        dsimp only
        rw [lookup_setKey_self, Option.bind_some, lookup_tally]
    · refine ih hnodup.2 _ (fun other hother => ?_) hrest
      have hne : other.code.toList ≠ entry.code.toList := fun heq =>
        hnodup.1 (heq ▸ List.mem_map_of_mem hother)
      rw [lookup_checkCode_of_ne hne]
      exact hfresh other (List.mem_cons_of_mem _ hother)

theorem status_foldl (entries : List XidEntry) (report : XidReport) :
    (entries.foldl (checkCode dmesgOutput) report).status = "Failed" ↔ report.status = "Failed" ∨
      ∃ entry ∈ entries, entry.severity = .critical ∧ matchesOf entry.code.toList dmesgOutput ≠ [] := by
  induction entries generalizing report with
  | nil => simp
  | cons entry rest ih =>
    have hstep : (checkCode dmesgOutput report entry).status = "Failed" ↔ report.status = "Failed" ∨
        entry.severity = .critical ∧ matchesOf entry.code.toList dmesgOutput ≠ [] := by
      rw [checkCode_eq]
      split
      case isTrue hnil => simp [hnil]
      case isFalse hnil =>
        dsimp only
        split
        · simp_all
        · simp_all
    rw [List.foldl_cons, ih, hstep, List.exists_mem_cons_iff, or_assoc]

theorem hasInfix_of_matches {code : Text} (h : matchesOf code dmesgOutput ≠ []) :
    PyStr.hasInfix "NVRM: Xid".toList dmesgOutput = true := by
  by_contra hnot
  refine h (findall_eq_nil fun tail htail => absurd (hasInfix_iff.mpr ?_) hnot)
  have hname : "NVRM: Xid".toList <+: header := by decide
  exact (hname.trans (List.prefix_append _ _)).isInfix.trans htail.isInfix

theorem count_checkGpuXid {code : Text} (hcode : code ∈ codes) (key : Text) :
    (checkGpuXid dmesgOutput).count code key = (matchesOf code dmesgOutput).count key := by
  unfold checkGpuXid
  split
  case isTrue => exact count_foldl nodup_codes _ (fun _ _ => rfl) hcode key
  case isFalse hnot =>
    have hnil : matchesOf code dmesgOutput = [] := by
      by_contra hne
      exact hnot (hasInfix_of_matches hne)
    rw [hnil]
    rfl

theorem status_checkGpuXid : (checkGpuXid dmesgOutput).status = "Failed" ↔
    ∃ entry ∈ xidEc, entry.severity = .critical ∧ matchesOf entry.code.toList dmesgOutput ≠ [] := by
  unfold checkGpuXid
  split
  case isTrue =>
    rw [status_foldl]
    exact or_iff_right (by decide)
  case isFalse hnot =>
    refine iff_of_false (show "Pass" ≠ "Failed" by decide) ?_
    rintro ⟨entry, -, -, hne⟩
    exact hnot (hasInfix_of_matches hne)

/-! ## Sums over the lines -/

theorem matchesOf_eq_lines {code : Text} (hcode : code ∈ codes) :
    matchesOf code dmesgOutput = (textLines dmesgOutput).flatMap (matchesOf code) :=
  findall_eq_lines header_ne (stopOf_ne code) newline_not_mem_header (newline_not_mem_stopOf hcode) dmesgOutput

theorem lineCount_eq (code key : Text) :
    lineCount dmesgOutput code key = ((textLines dmesgOutput).flatMap (ownMatches code)).count key := by
  unfold lineCount
  generalize textLines dmesgOutput = parts
  induction parts with
  | nil => rfl
  | cons line rest ih =>
    rw [List.flatMap_cons, List.count_append, ← ih]
    unfold ownMatches
    cases hxid : xidOf line with
    | none =>
      rw [List.filterMap_cons_none hxid]
      exact (Nat.zero_add _).symm
    | some xid =>
      rw [List.filterMap_cons_some hxid, List.countP_cons, Nat.add_comm]
      congr 1
      by_cases hcode : xid.2 = code
      · simp [hcode, List.count_singleton]
      · simp [hcode]

/-- If the counts agree, no line is matched more often than for its own code. -/
theorem eq_of_count_eq {found own : Text → List Text} (parts : List Text)
    (hextra : ∀ line ∈ parts, ∃ extra, found line = own line ++ extra)
    (h : ∀ key, (parts.flatMap found).count key = (parts.flatMap own).count key) :
    ∀ line ∈ parts, found line = own line := by
  have hlength : (parts.flatMap found).length = (parts.flatMap own).length :=
    (List.perm_iff_count.mpr h).length_eq
  clear h
  have hsum : (parts.flatMap own).length ≤ (parts.flatMap found).length ∧
      ((parts.flatMap found).length = (parts.flatMap own).length → ∀ line ∈ parts, found line = own line) := by
    clear hlength
    induction parts with
    | nil => exact ⟨Nat.le_refl _, fun _ => nofun⟩
    | cons line rest ih =>
      obtain ⟨hle, heq⟩ := ih fun other hother => hextra other (List.mem_cons_of_mem _ hother)
      obtain ⟨extra, hfound⟩ := hextra line List.mem_cons_self
      rw [List.flatMap_cons, List.flatMap_cons, List.length_append, List.length_append, hfound, List.length_append]
      refine ⟨by omega, fun hlength other hother => ?_⟩
      rcases List.mem_cons.mp hother with rfl | hother
      · have hnil : extra = [] := List.length_eq_zero_iff.mp (by omega)
        rw [hfound, hnil, List.append_nil]
      · exact heq (by omega) other hother
  exact hsum.2 hlength

end

/-! ## A line with another code in its tail -/

def mentionedCode : Text := "NVRM: Xid (PCI:0000:01:00): 43, channel error after: 31, pid=7".toList

end OciHpc.HealthChecks
