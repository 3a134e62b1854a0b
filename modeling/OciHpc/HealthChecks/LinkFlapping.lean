import OciHpc.Base.Calendar

/-!
# RDMA link flapping

* `strptime`, `replaceYear`, `mktime` : what `process_rdma_link_flapping` uses of `datetime` and `time`;
* `eventSeconds` : the time it assigns to the last event of a log, whose year the log does not show;
* `processRdmaLinkFlapping` : the whole check;
* `eventSeconds_eq_iff` : when the assigned time is the true one;
* `verdict_iff` : when the check does not raise, is right about the times, and reports what it should.
-/

namespace OciHpc.HealthChecks

/-! ## Times of the log -/

structure Stamp where
  month : Nat
  day : Nat
  hour : Nat
  minute : Nat
  second : Nat
  deriving DecidableEq, Repr

/-- A `ValueError` of `datetime`. -/
inductive DateError
  | value
  deriving DecidableEq, Repr

/-- `datetime.datetime(year, month, day, hour, minute, second)`. -/
def datetime (year : Nat) (s : Stamp) : Except DateError DateTime :=
  if h : 1 ≤ year ∧ 1 ≤ s.month ∧ s.month ≤ 12 ∧ 1 ≤ s.day ∧ s.day ≤ daysInMonth year s.month ∧
      s.hour < 24 ∧ s.minute < 60 ∧ s.second < 60 then
    .ok ⟨year, s.month, s.day, s.hour, s.minute, s.second, h.1, h.2.1, h.2.2.1, h.2.2.2.1, h.2.2.2.2.1, h.2.2.2.2.2.1,
      h.2.2.2.2.2.2.1, h.2.2.2.2.2.2.2⟩
  else .error .value

/-- What a log shows of a time: `%b %d %H:%M:%S`. -/
def stampOf (t : DateTime) : Stamp := ⟨t.month, t.day, t.hour, t.minute, t.second⟩

/-- `datetime.datetime.strptime(_, "%b %d %H:%M:%S")`: the year is 1900. -/
def strptime (s : Stamp) : Except DateError DateTime := datetime 1900 s

/-- `t.replace(year=year)`. -/
def replaceYear (t : DateTime) (year : Nat) : Except DateError DateTime := datetime year (stampOf t)

/-- `int(time.mktime(t.timetuple()))`, where local time is `utcOffset` ahead of UTC. -/
def mktime (utcOffset : Int) (t : DateTime) : Int := (t.seconds : Int) - utcOffset

/-! ## The check -/

structure LinkEvents (α : Type) where
  failures : List α
  linkDown : List α

abbrev LinkData (α : Type) := List (String × LinkEvents α)

structure LinkIssues where
  failures : List String
  linkDown : List String
  deriving DecidableEq, Repr

section
variable (utcOffset : Int) (now : DateTime)

def assignedYear (month : Nat) : Nat := if now.month < month then now.year - 1 else now.year

/-- `last_date_failure_sec`, and `last_date_down_sec`. -/
def eventSeconds (last : Stamp) : Except DateError Int := do
  let lastDate ← strptime last
  let lastDate ← replaceYear lastDate (assignedYear now lastDate.month)
  return mktime utcOffset lastDate

/-- The test of the last event; `last_date_failure_str` is never `current_date_str`, which begins with a year. -/
def isIssue (timeInterval : Int) (uptime : DateTime) (eventSec : Int) : Bool :=
  let bootupTimeGracePeriod := mktime utcOffset uptime + 1800
  let diffSecs := mktime utcOffset now - eventSec
  let diffHours := diffSecs / (60 * 60)
  diffHours < timeInterval && bootupTimeGracePeriod < eventSec

/-- The loop over the interfaces, for one kind of event. -/
def linkIssues (timeInterval : Int) (uptime : DateTime) (events : LinkEvents Stamp → List Stamp) :
    LinkData Stamp → Except DateError (List String)
  | [] => .ok []
  | (interface, entry) :: rest =>
    match (events entry).getLast? with
    | none => linkIssues timeInterval uptime events rest
    | some last => do
      let eventSec ← eventSeconds utcOffset now last
      let issues ← linkIssues timeInterval uptime events rest
      if isIssue utcOffset now timeInterval uptime eventSec then
        return (interface ++ ": " ++ toString (events entry).length) :: issues
      else return issues

def processRdmaLinkFlapping (timeInterval : Int) (uptime : DateTime) (linkData : LinkData Stamp) :
    Except DateError LinkIssues := do
  let failures ← linkIssues utcOffset now timeInterval uptime LinkEvents.failures linkData
  let linkDown ← linkIssues utcOffset now timeInterval uptime LinkEvents.linkDown linkData
  return { failures, linkDown }

end

/-! ## What the check is for -/

/-- The data of a log, from the times at which the events happened. -/
def linkDataOf (log : LinkData DateTime) : LinkData Stamp :=
  log.map fun entry => (entry.1, ⟨entry.2.failures.map stampOf, entry.2.linkDown.map stampOf⟩)

/-- The event is less than so many hours before now, and more than 30 minutes after the boot. -/
def Flaps (timeInterval : Int) (uptime now event : DateTime) : Prop :=
  (now.seconds : Int) - event.seconds < timeInterval * 3600 ∧ uptime.seconds + 1800 < event.seconds

instance (timeInterval : Int) (uptime now event : DateTime) : Decidable (Flaps timeInterval uptime now event) :=
  inferInstanceAs (Decidable (_ ∧ _))

/-- The issues of one kind: the interfaces whose last event flaps, with the number of their events. -/
def trueIssues (timeInterval : Int) (uptime now : DateTime) (events : LinkEvents DateTime → List DateTime)
    (log : LinkData DateTime) : List String :=
  (log.filter fun entry => match (events entry.2).getLast? with
    | some last => Flaps timeInterval uptime now last
    | none => false).map fun entry => entry.1 ++ ": " ++ toString (events entry.2).length

def lastEvents (log : LinkData DateTime) : List DateTime :=
  log.flatMap fun entry => entry.2.failures.getLast?.toList ++ entry.2.linkDown.getLast?.toList

/-- The check returns, assigns the true times, and reports just the interfaces that flap. -/
def Verdict (utcOffset timeInterval : Int) (uptime now : DateTime) (log : LinkData DateTime) : Prop :=
  (∀ event ∈ lastEvents log, eventSeconds utcOffset now (stampOf event) = .ok (mktime utcOffset event)) ∧
    processRdmaLinkFlapping utcOffset now timeInterval uptime (linkDataOf log) =
      .ok ⟨trueIssues timeInterval uptime now LinkEvents.failures log,
        trueIssues timeInterval uptime now LinkEvents.linkDown log⟩

/-- A time within the last 365 days. -/
def Recent (now event : DateTime) : Prop := event.seconds ≤ now.seconds ∧ now.seconds ≤ event.seconds + 365 * 86400

/-- A day of 29 February, or of the current month of last year. -/
def Misdated (now event : DateTime) : Prop :=
  event.month = 2 ∧ event.day = 29 ∨ event.month = now.month ∧ event.year + 1 = now.year

/-! ## The assigned time -/

theorem datetime_eq_ok {year : Nat} {s : Stamp} {t : DateTime} (h : datetime year s = .ok t) :
    t.year = year ∧ stampOf t = s := by
  unfold datetime at h
  split at h
  · cases h
    exact ⟨rfl, rfl⟩
  · cases h

theorem datetime_stampOf (t : DateTime) : datetime t.year (stampOf t) = .ok t :=
  dif_pos ⟨t.year_pos, t.month_pos, t.month_le, t.day_pos, t.day_le, t.hour_lt, t.minute_lt, t.second_lt⟩

theorem leapDay_1900 : leapDay 1900 = 0 := by decide

/-- The year 1900 has every day but 29 February. -/
theorem strptime_stampOf {event : DateTime} (h : ¬ (event.month = 2 ∧ event.day = 29)) :
    ∃ t, strptime (stampOf event) = .ok t ∧ stampOf t = stampOf event := by
  have hday : event.day ≤ daysInMonth 1900 event.month := by
    have hle := event.day_le
    have hleap := leapDay_le event.year
    unfold daysInMonth at *
    rw [leapDay_1900]
    by_cases hmonth : event.month = 2
    · have hcommon : commonDays event.month = 28 := by rw [hmonth]; rfl
      rw [if_pos hmonth] at hle ⊢
      omega
    · rw [if_neg hmonth] at hle ⊢
      exact hle
  have hread : strptime (stampOf event) = .ok ⟨1900, event.month, event.day, event.hour, event.minute, event.second,
      by decide, event.month_pos, event.month_le, event.day_pos, hday, event.hour_lt, event.minute_lt,
      event.second_lt⟩ :=
    dif_pos ⟨by decide, event.month_pos, event.month_le, event.day_pos, hday, event.hour_lt, event.minute_lt,
      event.second_lt⟩
  exact ⟨_, hread, rfl⟩

theorem strptime_leapDay {event : DateTime} (hmonth : event.month = 2) (hday : event.day = 29) :
    strptime (stampOf event) = .error .value := by
  refine dif_neg fun h => ?_
  have hle : event.day ≤ daysInMonth 1900 event.month := h.2.2.2.2.1
  rw [hmonth, hday] at hle
  exact absurd hle (by decide)

theorem eventSeconds_eq {utcOffset : Int} {now event : DateTime} (h : ¬ (event.month = 2 ∧ event.day = 29)) :
    eventSeconds utcOffset now (stampOf event) =
      (datetime (assignedYear now event.month) (stampOf event)).map (mktime utcOffset) := by
  obtain ⟨t, hread, hstamp⟩ := strptime_stampOf h
  have hmonth : t.month = event.month := congrArg Stamp.month hstamp
  show (strptime (stampOf event) >>= fun lastDate =>
    replaceYear lastDate (assignedYear now lastDate.month) >>= fun lastDate =>
      pure (mktime utcOffset lastDate)) = _
  rw [hread]
  show (replaceYear t (assignedYear now t.month) >>= fun lastDate => pure (mktime utcOffset lastDate)) = _
  unfold replaceYear
  rw [hstamp, hmonth]
  cases datetime (assignedYear now event.month) (stampOf event) <;> rfl

theorem assignedYear_of_recent {now event : DateTime} (hrecent : Recent now event) (h : ¬ Misdated now event) :
    assignedYear now event.month = event.year := by
  have hle := year_le_of_seconds_le hrecent.1
  unfold assignedYear
  rcases Nat.lt_or_ge event.year now.year with hlt | hge
  · obtain ⟨hlast, hmonth⟩ := year_of_within hlt hrecent.2
    have hne : event.month ≠ now.month := fun heq => h (.inr ⟨heq, hlast⟩)
    rw [if_pos (by omega)]
    omega
  · have hyear : event.year = now.year := by omega
    have hmonth := month_le_of_seconds_le hrecent.1 hyear
    rw [if_neg (by omega), hyear]

/-- **The assigned time is the true one** unless the event was on a 29 February or in this month of last year. -/
theorem eventSeconds_eq_iff {utcOffset : Int} {now event : DateTime} (hrecent : Recent now event) :
    eventSeconds utcOffset now (stampOf event) = .ok (mktime utcOffset event) ↔ ¬ Misdated now event := by
  constructor
  · rintro htrue (⟨hmonth, hday⟩ | ⟨hmonth, hlast⟩)
    · have hraise : eventSeconds utcOffset now (stampOf event) = .error .value := by
        unfold eventSeconds
        rw [strptime_leapDay hmonth hday]
        rfl
      cases hraise.symm.trans htrue
    · by_cases hleap : event.month = 2 ∧ event.day = 29
      · have hraise : eventSeconds utcOffset now (stampOf event) = .error .value := by
          unfold eventSeconds
          rw [strptime_leapDay hleap.1 hleap.2]
          rfl
        cases hraise.symm.trans htrue
      · have hyear : assignedYear now event.month = now.year := if_neg (by omega)
        rw [eventSeconds_eq hleap, hyear] at htrue
        cases hdate : datetime now.year (stampOf event) with
        | error e =>
          rw [hdate] at htrue
          cases htrue
        | ok t =>
          rw [hdate] at htrue
          have hlater : event.year < t.year := by
            rw [(datetime_eq_ok hdate).1]
            omega
          have hlt := seconds_lt_of_year_lt hlater
          have hsame : mktime utcOffset t = mktime utcOffset event := Except.ok.inj htrue
          unfold mktime at hsame
          omega
  · intro h
    rw [eventSeconds_eq fun hleap => h (.inl hleap), assignedYear_of_recent hrecent h, datetime_stampOf]
    rfl

/-! ## The verdict -/

theorem isIssue_iff {utcOffset timeInterval : Int} {uptime now event : DateTime} :
    isIssue utcOffset now timeInterval uptime (mktime utcOffset event) = true ↔ Flaps timeInterval uptime now event := by
  unfold isIssue Flaps mktime
  simp only [Bool.and_eq_true, decide_eq_true_eq]
  omega

/-- Where the times are right, so are the issues of each kind. -/
theorem linkIssues_eq {utcOffset timeInterval : Int} {uptime now : DateTime}
    (events : LinkEvents DateTime → List DateTime) (stamps : LinkEvents Stamp → List Stamp)
    (hstamps : ∀ entry : LinkEvents DateTime,
      stamps ⟨entry.failures.map stampOf, entry.linkDown.map stampOf⟩ = (events entry).map stampOf)
    {log : LinkData DateTime}
    (htimes : ∀ entry ∈ log, ∀ last, (events entry.2).getLast? = some last →
      eventSeconds utcOffset now (stampOf last) = .ok (mktime utcOffset last)) :
    linkIssues utcOffset now timeInterval uptime stamps (linkDataOf log) =
      .ok (trueIssues timeInterval uptime now events log) := by
  induction log with
  | nil => rfl
  | cons entry rest ih =>
    have hrest := ih fun other hother => htimes other (List.mem_cons_of_mem _ hother)
    show (match (stamps ⟨entry.2.failures.map stampOf, entry.2.linkDown.map stampOf⟩).getLast? with
      | none => linkIssues utcOffset now timeInterval uptime stamps (linkDataOf rest)
      | some last => eventSeconds utcOffset now last >>= fun eventSec =>
        linkIssues utcOffset now timeInterval uptime stamps (linkDataOf rest) >>= fun issues =>
          if isIssue utcOffset now timeInterval uptime eventSec then
            pure ((entry.1 ++ ": " ++ toString (stamps ⟨entry.2.failures.map stampOf,
              entry.2.linkDown.map stampOf⟩).length) :: issues)
          else pure issues) = _
    rw [hstamps, List.getLast?_map, List.length_map, hrest]
    unfold trueIssues
    cases hlast : (events entry.2).getLast? with
    | none =>
      rw [List.filter_cons_of_neg (by rw [hlast]; exact Bool.false_ne_true)]
      rfl
    | some last =>
      have htime := htimes entry List.mem_cons_self last hlast
      show (eventSeconds utcOffset now (stampOf last) >>= _) = _
      rw [htime]
      show (if isIssue utcOffset now timeInterval uptime (mktime utcOffset last) then _ else _) = _
      by_cases hflaps : Flaps timeInterval uptime now last
      · rw [if_pos (isIssue_iff.mpr hflaps), List.filter_cons_of_pos (by rw [hlast]; exact decide_eq_true hflaps)]
        rfl
      · rw [if_neg (fun h => hflaps (isIssue_iff.mp h)),
          List.filter_cons_of_neg (by rw [hlast]; simpa using hflaps)]
        rfl

theorem mem_lastEvents {log : LinkData DateTime} {event : DateTime} :
    event ∈ lastEvents log ↔ ∃ entry ∈ log,
      entry.2.failures.getLast? = some event ∨ entry.2.linkDown.getLast? = some event := by
  unfold lastEvents
  simp only [List.mem_flatMap, List.mem_append, Option.mem_toList]

/-- **The check is right exactly if no last event is misdated.** -/
theorem verdict_iff {utcOffset timeInterval : Int} {uptime now : DateTime} {log : LinkData DateTime}
    (hrecent : ∀ event ∈ lastEvents log, Recent now event) :
    Verdict utcOffset timeInterval uptime now log ↔ ∀ event ∈ lastEvents log, ¬ Misdated now event := by
  constructor
  · intro h event hevent
    exact (eventSeconds_eq_iff (hrecent event hevent)).mp (h.1 event hevent)
  · intro h
    have htimes : ∀ event ∈ lastEvents log,
        eventSeconds utcOffset now (stampOf event) = .ok (mktime utcOffset event) := fun event hevent =>
      (eventSeconds_eq_iff (hrecent event hevent)).mpr (h event hevent)
    have hfailures := @linkIssues_eq utcOffset timeInterval uptime now LinkEvents.failures LinkEvents.failures
      (fun _ => rfl) log fun entry hentry last hlast => htimes last (mem_lastEvents.mpr ⟨entry, hentry, .inl hlast⟩)
    have hlinkDown := @linkIssues_eq utcOffset timeInterval uptime now LinkEvents.linkDown LinkEvents.linkDown
      (fun _ => rfl) log fun entry hentry last hlast => htimes last (mem_lastEvents.mpr ⟨entry, hentry, .inr hlast⟩)
    refine ⟨htimes, ?_⟩
    unfold processRdmaLinkFlapping
    rw [hfailures, hlinkDown]
    rfl

/-! ## Two logs -/

def june (year day : Nat) (h : 1 ≤ year ∧ 1 ≤ day ∧ day ≤ daysInMonth year 6) : DateTime :=
  ⟨year, 6, day, 0, 0, 0, h.1, by decide, by decide, h.2.1, h.2.2, by decide, by decide, by decide⟩

def today : DateTime := june 2025 10 (by decide)

def yesterday : DateTime := june 2025 9 (by decide)

def lastJune : DateTime := june 2024 20 (by decide)

def bootTime : DateTime := june 2025 1 (by decide)

def oneFailure (event : DateTime) : LinkData DateTime := [("eth0", ⟨[event], []⟩)]

theorem lastEvents_oneFailure (event : DateTime) : lastEvents (oneFailure event) = [event] := rfl

theorem verdict_iff_yesterday :
    Verdict 0 6 bootTime today (oneFailure yesterday) ↔
      ∀ event ∈ lastEvents (oneFailure yesterday), ¬ Misdated today event := by
  refine verdict_iff fun event hevent => ?_
  rw [lastEvents_oneFailure, List.mem_singleton] at hevent
  subst hevent
  exact ⟨by decide, by decide⟩

/-- An event of June of last year is taken for one of the June to come. -/
theorem lastJune_is_misdated : ¬ ∀ (utcOffset timeInterval : Int) (uptime now : DateTime) (log : LinkData DateTime),
    (∀ event ∈ lastEvents log, Recent now event) → Verdict utcOffset timeInterval uptime now log := by
  intro h
  have hrecent : ∀ event ∈ lastEvents (oneFailure lastJune), Recent today event := by
    intro event hevent
    rw [lastEvents_oneFailure, List.mem_singleton] at hevent
    subst hevent
    exact ⟨by decide, by decide⟩
  have hverdict := h 0 6 bootTime today (oneFailure lastJune) hrecent
  exact absurd (hverdict.1 lastJune List.mem_cons_self) (by decide)

end OciHpc.HealthChecks
