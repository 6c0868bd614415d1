import MarketDataRecorder.Lib.Durable
import MarketDataRecorder.Lib.RoundRobin
import MarketDataRecorder.Lib.Transition
import MarketDataRecorder.Metrics.DailyReport

/-!
# Daily report maintenance

`write_one_pending` writes the report of one closed day that is not current: the cursor, then the
JSON, then the CSV, then a receipt with the input token and the digests of the two files. A day is
current where its receipt names the token of the Catalog and the digests of the files as they are.

Each file is replaced as a whole, and a crash may come in front of each replacement. Rows are
committed in between: in the middle of a build, and while the receipt is written.

* `DailyReporter.Sound` — what stands behind every receipt
* `DailyReporter.sound_of_reachable` — it does, wherever calls end or crash
* `DailyReporter.takesTurns` — a call leaves the other days as they are
* `DailyReporter.maintenance_faithful` — a report that looks current is one of the inputs of its day
-/

namespace MarketDataRecorder

/-! ## Files -/

/-- `.{day}.inputs.json`: the input token, and the digests of the two files. -/
structure ReportReceipt where
  inputs : InputToken
  json : String
  csv : String
  deriving DecidableEq

/-- The directory of the reports. -/
structure ReportDirectory where
  /-- `last_attempt_day` of `.maintenance-cursor.json`. -/
  cursor : Option Int
  receipts : SortedDict Int ReportReceipt
  json : SortedDict Int String
  csv : SortedDict Int String
  deriving DecidableEq

structure ReportSystem where
  catalog : ReportCatalog
  directory : ReportDirectory

/-- Replacements of files, and what other processes commit meanwhile. -/
inductive ReportWrite where
  | commit (catalog : ReportCatalog)
  | cursor (day : Int)
  | json (day : Int) (body : String)
  | csv (day : Int) (body : String)
  | receipt (day : Int) (document : ReportReceipt)

def ReportWrite.apply : ReportWrite → ReportSystem → ReportSystem
  | .commit catalog, s => { s with catalog := catalog }
  | .cursor day, s => { s with directory := { s.directory with cursor := some day } }
  | .json day body, s =>
    { s with directory := { s.directory with json := s.directory.json.insert day body } }
  | .csv day body, s =>
    { s with directory := { s.directory with csv := s.directory.csv.insert day body } }
  | .receipt day document, s =>
    { s with directory := { s.directory with receipts := s.directory.receipts.insert day document }
      }

inductive ReportOutcome where
  | idle
  | complete (day : Int)
  | retryInputChanged (day : Int)
  deriving DecidableEq, Repr

/-- A call of `write_one_pending`, and what happens during it. -/
structure MaintenanceCall where
  today : Int
  build : ReportBuild
  /-- The Catalog when the receipt is written. -/
  finish : ReportCatalog

structure MaintenanceCall.Follows (call : MaintenanceCall) (c : ReportCatalog) : Prop where
  build : call.build.Follows c
  finish : call.build.after.Extends call.finish

/-- Nothing is committed during a call. -/
structure MaintenanceCall.Quiet (call : MaintenanceCall) (c : ReportCatalog) : Prop where
  after : call.build.after = c
  finish : call.finish = c

namespace DailyReporter

variable {ν : Type} [LinearOrder ν] (numbers : GaugeNumbers ν) (digest : String → String)

/-- The receipt that the files of a day and a token would have. -/
def receiptOf (directory : ReportDirectory) (day : Int) (token : InputToken) :
    Option ReportReceipt :=
  (directory.json.get? day).bind fun json => (directory.csv.get? day).map fun csv =>
    ⟨token, digest json, digest csv⟩

def current (directory : ReportDirectory) (day : Int) (token : InputToken) : Bool :=
  (directory.receipts.get? day).any fun receipt =>
    receiptOf digest directory day token = some receipt

/-- Whether a closed day has to be written. -/
def pending (s : ReportSystem) (day : Int) : Bool :=
  !current digest s.directory day (s.catalog.dailyReportInputToken day)

def pendingDay (s : ReportSystem) (today : Int) : Option Int :=
  RoundRobin.pick (pending digest s) (s.catalog.reportDatesBefore today) s.directory.cursor

/-- `_write_locked`. -/
def writeLocked (build : ReportBuild) (day : Int) :
    Durable ReportWrite ReportSystem String Unit := do
  .perform (.commit build.after)
  let report ← .ofExcept (build.report numbers day)
  .perform (.json day report.json)
  .perform (.csv day report.csv)

/-- `_write_one_pending_locked`. -/
def writeOnePending (call : MaintenanceCall) :
    Durable ReportWrite ReportSystem String ReportOutcome := do
  let s ← .look
  match pendingDay digest s call.today with
  | none => return .idle
  | some day =>
    let token := s.catalog.dailyReportInputToken day
    -- The cursor moves first, so that a day that fails does not starve the others.
    .perform (.cursor day)
    writeLocked numbers call.build day
    let written ← .look
    -- The inputs changed while the report was built: no receipt, and the day stays pending.
    if written.catalog.dailyReportInputToken day ≠ token then return .retryInputChanged day
    else
      .perform (.commit call.finish)
      match receiptOf digest written.directory day token with
      | none => .raise "FileNotFoundError"
      | some receipt =>
        .perform (.receipt day receipt)
        return .complete day

/-! ## The system -/

/-- What happens to the reports: rows are committed, a report is written by hand, a call is made;
either may end with a crash after some of its writes. -/
inductive Action where
  | commit (catalog : ReportCatalog)
  | write (day : Int) (build : ReportBuild)
  | writeCrash (day : Int) (build : ReportBuild) (writes : Nat)
  | maintain (call : MaintenanceCall)
  | maintainCrash (call : MaintenanceCall) (writes : Nat)

def step (s : ReportSystem) : Action → ReportSystem
  | .commit catalog => { s with catalog := catalog }
  | .write day build => ((writeLocked numbers build day).run ReportWrite.apply s).2
  | .writeCrash day build n =>
    ((writeLocked numbers build day).crashAt ReportWrite.apply n none s).state
  | .maintain call => ((writeOnePending numbers digest call).run ReportWrite.apply s).2
  | .maintainCrash call n =>
    ((writeOnePending numbers digest call).crashAt ReportWrite.apply n none s).state

/-- The bodies that a build of a day makes are among those given. -/
def Writes (bodies : Set String) (build : ReportBuild) (day : Int) : Prop :=
  ∀ report, build.report numbers day = .ok report → report.json ∈ bodies ∧ report.csv ∈ bodies

def Allowed (bodies : Set String) (s : ReportSystem) : Action → Prop
  | .commit catalog => s.catalog.Extends catalog
  | .write day build | .writeCrash day build _ =>
    build.Follows s.catalog ∧ Writes numbers bodies build day
  | .maintain call | .maintainCrash call _ => call.Follows s.catalog ∧
    ∀ day, pendingDay digest s call.today = some day → Writes numbers bodies call.build day

/-- The system starts without reports. -/
def system : TransitionSystem ReportSystem Action where
  initial s := s.directory.receipts = .empty ∧ s.directory.json = .empty ∧ s.directory.csv = .empty
  step s action := some (step numbers digest s action)

/-- The states of the runs that write bodies among those given. -/
abbrev Reachable (bodies : Set String) (s : ReportSystem) : Prop :=
  (system numbers digest).Reachable (Allowed numbers digest bodies) s

/-! ## Receipts -/

/-- The files of a report that a build over a Catalog makes. -/
def Publishes (c : ReportCatalog) (day : Int) (json csv : String) : Prop :=
  ∃ generatedAt report, (c.build generatedAt).report numbers day = .ok report ∧
    json = report.json ∧ csv = report.csv

/-- What stands behind a receipt: a report of a Catalog that the present one extends. -/
def Backed (bodies : Set String) (c : ReportCatalog) (day : Int) (receipt : ReportReceipt) : Prop :=
  ∃ c₀ json csv, ReportCatalog.Extends c₀ c ∧ receipt.inputs = c₀.dailyReportInputToken day ∧
    Publishes numbers c₀ day json csv ∧ (json ∈ bodies ∧ csv ∈ bodies) ∧
    receipt.json = digest json ∧ receipt.csv = digest csv

/-- The files are among the bodies given. -/
structure Filed (bodies : Set String) (directory : ReportDirectory) : Prop where
  json : ∀ day body, directory.json.get? day = some body → body ∈ bodies
  csv : ∀ day body, directory.csv.get? day = some body → body ∈ bodies

structure Sound (bodies : Set String) (s : ReportSystem) : Prop where
  receipts : ∀ day receipt, s.directory.receipts.get? day = some receipt →
    Backed numbers digest bodies s.catalog day receipt
  filed : Filed bodies s.directory

variable {numbers digest} {bodies : Set String} {c c' : ReportCatalog}
  {s t : ReportSystem} {day : Int}
  {receipt : ReportReceipt}

/-- A receipt stays backed when the Catalog grows. -/
theorem Backed.extends (h : Backed numbers digest bodies c day receipt)
    (hextends : c.Extends c') : Backed numbers digest bodies c' day receipt := by
  obtain ⟨c₀, json, csv, hc₀, hbacked⟩ := h
  exact ⟨c₀, json, csv, hc₀.trans hextends, hbacked⟩

/-- **Behind a receipt with the present token are the present inputs.** -/
theorem Backed.publishes (h : Backed numbers digest bodies c day receipt)
    (htoken : receipt.inputs = c.dailyReportInputToken day) :
    ∃ json csv, Publishes numbers c day json csv ∧ (json ∈ bodies ∧ csv ∈ bodies) ∧
      receipt.json = digest json ∧ receipt.csv = digest csv := by
  obtain ⟨c₀, json, csv, hextends, hinputs, ⟨generatedAt, report, hreport, htexts⟩, hdigests⟩ := h
  have hsame := ReportCatalog.inputs_eq_of_token hextends (hinputs.symm.trans htoken)
  refine ⟨json, csv, ⟨generatedAt, report, ?_, htexts⟩, hdigests⟩
  rw [← report_build_congr hsame]
  exact hreport

/-- A day has a receipt of its files where both are there. -/
theorem receiptOf_eq_some {directory : ReportDirectory} {token : InputToken} :
    receiptOf digest directory day token = some receipt ↔
      ∃ json csv, directory.json.get? day = some json ∧ directory.csv.get? day = some csv ∧
        receipt = ⟨token, digest json, digest csv⟩ := by
  simp only [receiptOf, Option.bind_eq_some_iff, Option.map_eq_some_iff]
  constructor
  · rintro ⟨json, hjson, csv, hcsv, rfl⟩
    exact ⟨json, csv, hjson, hcsv, rfl⟩
  · rintro ⟨json, csv, hjson, hcsv, rfl⟩
    exact ⟨json, hjson, csv, hcsv, rfl⟩

/-- A day is current where the receipt on disk is that of its token and files. -/
theorem current_iff {directory : ReportDirectory} {token : InputToken} :
    current digest directory day token = true ↔ ∃ receipt,
      directory.receipts.get? day = some receipt ∧
        receiptOf digest directory day token = some receipt := by
  rw [current, Option.any_eq_true]
  simp only [decide_eq_true_eq]

/-- A current day's receipt has the token. -/
theorem exists_receipt_of_current {directory : ReportDirectory} {token : InputToken}
    (h : current digest directory day token = true) :
    ∃ receipt, directory.receipts.get? day = some receipt ∧ receipt.inputs = token := by
  obtain ⟨receipt, hreceipt, hfiles⟩ := current_iff.mp h
  obtain ⟨json, csv, -, -, rfl⟩ := receiptOf_eq_some.mp hfiles
  exact ⟨_, hreceipt, rfl⟩

/-- **What looks current is a report of the inputs of its day.** -/
theorem Sound.publishes (h : Sound numbers digest bodies s) (hdigest : Set.InjOn digest bodies)
    (hcurrent : current digest s.directory day (s.catalog.dailyReportInputToken day) = true) :
    ∃ json csv, s.directory.json.get? day = some json ∧ s.directory.csv.get? day = some csv ∧
      Publishes numbers s.catalog day json csv := by
  obtain ⟨receipt, hreceipt, hfiles⟩ := current_iff.mp hcurrent
  obtain ⟨json, csv, hjson, hcsv, rfl⟩ := receiptOf_eq_some.mp hfiles
  obtain ⟨json', csv', hpublishes, ⟨hjsonMem, hcsvMem⟩, hjson', hcsv'⟩ :=
    (h.receipts day _ hreceipt).publishes rfl
  -- the files have the digests of the report, so they are the report
  cases hdigest (h.filed.json day json hjson) hjsonMem hjson'
  cases hdigest (h.filed.csv day csv hcsv) hcsvMem hcsv'
  exact ⟨json, csv, hjson, hcsv, hpublishes⟩

/-! ## Calls -/

variable (numbers digest bodies) in
/-- What holds of a state that a call has come to, from the one it started in. -/
structure After (s t : ReportSystem) : Prop where
  sound : Sound numbers digest bodies t
  grows : s.catalog.Extends t.catalog
  /-- A receipt is an old one, or has the token from before. -/
  receipts : ∀ day receipt, t.directory.receipts.get? day = some receipt →
    s.directory.receipts.get? day = some receipt ∨
      receipt.inputs = s.catalog.dailyReportInputToken day

/-- **A day whose inputs have changed does not look current.** -/
theorem After.not_current (h : After numbers digest bodies s t) (hs : Sound numbers digest bodies s)
    (hinputs : t.catalog.inputs day ≠ s.catalog.inputs day) :
    current digest t.directory day (t.catalog.dailyReportInputToken day) = false := by
  refine Bool.eq_false_iff.mpr fun hcurrent => hinputs ?_
  obtain ⟨receipt, hreceipt, htoken⟩ := exists_receipt_of_current hcurrent
  rcases h.receipts day receipt hreceipt with hold | hnew
  · -- an old receipt is of a Catalog from before the call
    obtain ⟨c₀, -, -, hextends, hc₀, -⟩ := hs.receipts day receipt hold
    have hsame := ReportCatalog.inputs_eq_of_token (hextends.trans h.grows) (hc₀.symm.trans htoken)
    rw [ReportCatalog.inputs_between hextends h.grows hsame, hsame]
  · exact (ReportCatalog.inputs_eq_of_token h.grows (hnew.symm.trans htoken)).symm

/-- Where no receipt is written. -/
theorem after_of_receipts (hs : Sound numbers digest bodies s)
    (hgrows : s.catalog.Extends t.catalog)
    (hreceipts : t.directory.receipts = s.directory.receipts) (hfiled : Filed bodies t.directory) :
    After numbers digest bodies s t := by
  refine ⟨⟨fun day receipt hreceipt => ?_, hfiled⟩, hgrows, fun day receipt hreceipt => Or.inl ?_⟩
  · rw [hreceipts] at hreceipt
    exact (hs.receipts day receipt hreceipt).extends hgrows
  · rw [← hreceipts]
    exact hreceipt

/-- Where a receipt is written for what was read and written under one token. -/
theorem after_of_receipt (hs : Sound numbers digest bodies s) (hgrows : s.catalog.Extends t.catalog)
    (hreceipts : t.directory.receipts = s.directory.receipts.insert day receipt)
    (hinputs : receipt.inputs = s.catalog.dailyReportInputToken day)
    (hbacked : Backed numbers digest bodies s.catalog day receipt)
    (hfiled : Filed bodies t.directory) : After numbers digest bodies s t := by
  have hcases : ∀ day' receipt', t.directory.receipts.get? day' = some receipt' →
      (day' = day ∧ receipt' = receipt) ∨ s.directory.receipts.get? day' = some receipt' := by
    intro day' receipt' hreceipt
    rw [hreceipts, SortedDict.get?_insert] at hreceipt
    split at hreceipt
    · next hday => exact Or.inl ⟨hday, (Option.some.inj hreceipt).symm⟩
    · exact Or.inr hreceipt
  refine ⟨⟨fun day' receipt' hreceipt => ?_, hfiled⟩, hgrows, fun day' receipt' hreceipt => ?_⟩
  · rcases hcases day' receipt' hreceipt with ⟨rfl, rfl⟩ | hold
    · exact hbacked.extends hgrows
    · exact (hs.receipts day' receipt' hold).extends hgrows
  · rcases hcases day' receipt' hreceipt with ⟨rfl, rfl⟩ | hold
    · exact Or.inr hinputs
    · exact Or.inl hold

/-! ## What a call does -/

/-- The directory with the documents of a report. -/
def withDocuments (directory : ReportDirectory) (day : Int) (report : DailyReport) :
    ReportDirectory :=
  { directory with
    json := directory.json.insert day report.json
    csv := directory.csv.insert day report.csv }

/-- After both files are written, their receipt has their digests. -/
theorem receiptOf_withDocuments (directory : ReportDirectory) (report : DailyReport)
    (token : InputToken) :
    receiptOf digest (withDocuments directory day report) day token =
      some ⟨token, digest report.json, digest report.csv⟩ := by
  rw [receiptOf, withDocuments]
  simp only [SortedDict.get?_insert, if_true]
  rfl

/-- Writing a body keeps the directory made of bodies. -/
theorem Filed.withJson {directory : ReportDirectory} (h : Filed bodies directory) {body : String}
    (hbody : body ∈ bodies) :
    Filed bodies { directory with json := directory.json.insert day body } where
  json day' body' hbody' := by
    rw [SortedDict.get?_insert] at hbody'
    split at hbody'
    · exact Option.some.inj hbody' ▸ hbody
    · exact h.json day' body' hbody'
  csv := h.csv

theorem Filed.withCsv {directory : ReportDirectory} (h : Filed bodies directory) {body : String}
    (hbody : body ∈ bodies) :
    Filed bodies { directory with csv := directory.csv.insert day body } where
  json := h.json
  csv day' body' hbody' := by
    rw [SortedDict.get?_insert] at hbody'
    split at hbody'
    · exact Option.some.inj hbody' ▸ hbody
    · exact h.csv day' body' hbody'

section

open ReportWrite

variable {build : ReportBuild} {call : MaintenanceCall} {last : Option ReportWrite}
  {R : String → Option ReportWrite → ReportSystem → Prop} {C : Option ReportWrite →
  ReportSystem → Prop}

/-- **What a rebuild writes, and where it can stop**: the Catalog commits, the JSON file, the CSV
file and the receipt, in this order. -/
theorem wp_writeLocked {Q : Unit → Option ReportWrite → ReportSystem → Prop}
    (hstart : C last s)
    (hfails : ∀ message, build.report numbers day = .error message →
      R message (some (.commit build.after)) ⟨build.after, s.directory⟩)
    (hwrites : ∀ report, build.report numbers day = .ok report →
      C (some (.commit build.after)) ⟨build.after, s.directory⟩ ∧
      C (some (.json day report.json))
        ⟨build.after, { s.directory with json := s.directory.json.insert day report.json }⟩ ∧
      Q () (some (.csv day report.csv))
        ⟨build.after, withDocuments s.directory day report⟩) :
    (writeLocked numbers build day).wp apply Q R C last s := by
  rw [writeLocked, Durable.wp_bind, Durable.wp_perform]
  refine ⟨hstart, ?_⟩
  rw [Durable.wp_bind, Durable.wp_ofExcept]
  refine ⟨fun report hreport => ?_, hfails⟩
  obtain ⟨hcommit, hjson, hcsv⟩ := hwrites report hreport
  rw [Durable.wp_bind, Durable.wp_perform]
  refine ⟨hcommit, ?_⟩
  rw [Durable.wp_perform]
  exact ⟨hjson, hcsv⟩

/-- The writes of a call whose turn is a day. -/
theorem wp_writeOnePending {Q : ReportOutcome → Option ReportWrite → ReportSystem → Prop}
    (hpick : pendingDay digest s call.today = some day)
    (hstart : C last s)
    (hcursor : C (some (.cursor day)) ⟨s.catalog, { s.directory with cursor := some day }⟩)
    (hfails : ∀ message, call.build.report numbers day = .error message →
      R message (some (.commit call.build.after))
        ⟨call.build.after, { s.directory with cursor := some day }⟩)
    (hwrites : ∀ report, call.build.report numbers day = .ok report →
      C (some (.commit call.build.after))
        ⟨call.build.after, { s.directory with cursor := some day }⟩ ∧
      C (some (.json day report.json)) ⟨call.build.after, { s.directory with
        cursor := some day
        json := s.directory.json.insert day report.json }⟩)
    (hretry : ∀ report, call.build.report numbers day = .ok report →
      call.build.after.dailyReportInputToken day ≠ s.catalog.dailyReportInputToken day →
      Q (.retryInputChanged day) (some (.csv day report.csv))
        ⟨call.build.after, withDocuments { s.directory with cursor := some day } day report⟩)
    (hcomplete : ∀ report, call.build.report numbers day = .ok report →
      call.build.after.dailyReportInputToken day = s.catalog.dailyReportInputToken day →
      let receipt : ReportReceipt := ⟨s.catalog.dailyReportInputToken day, digest report.json,
        digest report.csv⟩
      let directory := withDocuments { s.directory with cursor := some day } day report
      C (some (.csv day report.csv)) ⟨call.build.after, directory⟩ ∧
      C (some (.commit call.finish)) ⟨call.finish, directory⟩ ∧
      Q (.complete day) (some (.receipt day receipt))
        ⟨call.finish, { directory with receipts := directory.receipts.insert day receipt }⟩) :
    (writeOnePending numbers digest call).wp apply Q R C last s := by
  rw [writeOnePending, Durable.wp_bind, Durable.wp_look, hpick]
  simp only
  rw [Durable.wp_bind, Durable.wp_perform]
  refine ⟨hstart, ?_⟩
  rw [Durable.wp_bind]
  refine wp_writeLocked hcursor hfails fun report hreport => ?_
  obtain ⟨hcommit, hjson⟩ := hwrites report hreport
  refine ⟨hcommit, hjson, ?_⟩
  rw [Durable.wp_bind, Durable.wp_look]
  by_cases htoken : call.build.after.dailyReportInputToken day = s.catalog.dailyReportInputToken day
  · obtain ⟨hcsv, hfinish, hreceipt⟩ := hcomplete report hreport htoken
    rw [if_neg (not_not.mpr htoken), Durable.wp_bind, Durable.wp_perform, receiptOf_withDocuments]
    refine ⟨hcsv, ?_⟩
    simp only
    rw [Durable.wp_bind, Durable.wp_perform]
    exact ⟨hfinish, hreceipt⟩
  · rw [if_pos htoken]
    exact hretry report hreport htoken

/-- A call with no pending day writes nothing. -/
theorem wp_writeOnePending_idle {Q : ReportOutcome → Option ReportWrite → ReportSystem → Prop}
    (hpick : pendingDay digest s call.today = none) (hidle : Q .idle last s) :
    (writeOnePending numbers digest call).wp apply Q R C last s := by
  rw [writeOnePending, Durable.wp_bind, Durable.wp_look, hpick]
  exact hidle

variable (last) in
/-- **A call keeps the receipts backed wherever it stops.** -/
theorem wp_after (hs : Sound numbers digest bodies s) (hcall : call.Follows s.catalog)
    (hwrites : ∀ day, pendingDay digest s call.today = some day →
      Writes numbers bodies call.build day) :
    (writeOnePending numbers digest call).wp apply (fun _ _ => After numbers digest bodies s)
      (fun _ _ => After numbers digest bodies s) (fun _ => After numbers digest bodies s)
      last s := by
  have hsame := ReportCatalog.Extends.refl s.catalog
  have hafter := hcall.build.all
  cases hpick : pendingDay digest s call.today with
  | none => exact wp_writeOnePending_idle hpick (after_of_receipts hs hsame rfl hs.filed)
  | some day =>
    have hcursor : Filed bodies { s.directory with cursor := some day } :=
      ⟨hs.filed.json, hs.filed.csv⟩
    have hfiled : ∀ report, call.build.report numbers day = .ok report →
        Filed bodies (withDocuments { s.directory with cursor := some day } day report) :=
      fun report hreport => (hcursor.withJson (hwrites day hpick report hreport).1).withCsv
        (hwrites day hpick report hreport).2
    refine wp_writeOnePending hpick (after_of_receipts hs hsame rfl hs.filed) ?_ ?_ ?_ ?_ ?_
    · exact after_of_receipts hs hsame rfl hcursor
    · intro message _
      exact after_of_receipts hs hafter rfl hcursor
    · intro report hreport
      exact ⟨after_of_receipts hs hafter rfl hcursor, after_of_receipts hs hafter rfl
        (hcursor.withJson (hwrites day hpick report hreport).1)⟩
    · intro report hreport _
      exact after_of_receipts hs hafter rfl (hfiled report hreport)
    · intro report hreport htoken
      have hfinish := hafter.trans hcall.finish
      refine ⟨after_of_receipts hs hafter rfl (hfiled report hreport),
        after_of_receipts hs hfinish rfl (hfiled report hreport), ?_⟩
      -- the token is the one from before the build, so the build read nothing else
      have hinputs := ReportCatalog.inputs_eq_of_token hafter htoken.symm
      refine after_of_receipt hs hfinish rfl rfl ?_
        ⟨(hfiled report hreport).json, (hfiled report hreport).csv⟩
      exact ⟨s.catalog, _, _, hsame, rfl,
        ⟨_, report, report_eq_build hcall.build hinputs hreport, rfl, rfl⟩,
        hwrites day hpick report hreport, rfl, rfl⟩

variable (last) in
/-- A rebuild of any day leaves the directory sound and what was backed backed, wherever it
stops. -/
theorem wp_write_after (hs : Sound numbers digest bodies s) (hbuild : build.Follows s.catalog)
    (hwrites : Writes numbers bodies build day) :
    (writeLocked numbers build day).wp apply (fun _ _ => After numbers digest bodies s)
      (fun _ _ => After numbers digest bodies s) (fun _ => After numbers digest bodies s)
      last s := by
  refine wp_writeLocked
    (after_of_receipts hs (ReportCatalog.Extends.refl s.catalog) rfl hs.filed) ?_ ?_
  · intro message _
    exact after_of_receipts hs hbuild.all rfl hs.filed
  · intro report hreport
    obtain ⟨hjson, hcsv⟩ := hwrites report hreport
    exact ⟨after_of_receipts hs hbuild.all rfl hs.filed,
      after_of_receipts hs hbuild.all rfl (hs.filed.withJson hjson),
      after_of_receipts hs hbuild.all rfl ((hs.filed.withJson hjson).withCsv hcsv)⟩

end

/-- What a step leaves behind. -/
theorem after_step {action : Action} (hs : Sound numbers digest bodies s)
    (hallowed : Allowed numbers digest bodies s action) :
    After numbers digest bodies s (step numbers digest s action) := by
  cases action with
  | commit catalog => exact after_of_receipts hs hallowed rfl hs.filed
  | write day build =>
    exact Durable.run_invariant (wp_write_after none hs hallowed.1 hallowed.2)
  | writeCrash day build n =>
    exact Durable.crashAt_invariant (wp_write_after none hs hallowed.1 hallowed.2) n
  | maintain call => exact Durable.run_invariant (wp_after none hs hallowed.1 hallowed.2)
  | maintainCrash call n =>
    exact Durable.crashAt_invariant (wp_after none hs hallowed.1 hallowed.2) n

/-- **Wherever calls end or crash, something stands behind every receipt.** -/
theorem sound_of_reachable (h : Reachable numbers digest bodies s) :
    Sound numbers digest bodies s := by
  refine TransitionSystem.Reachable.invariant h ?_ ?_
  · rintro s ⟨hreceipts, hjson, hcsv⟩
    refine ⟨fun day receipt h => ?_, fun day body h => ?_, fun day body h => ?_⟩
    · rw [hreceipts] at h
      cases h
    · rw [hjson] at h
      cases h
    · rw [hcsv] at h
      cases h
  · intro s action t hs hallowed hstep
    cases Option.some.inj hstep
    exact (after_step hs hallowed).sound

/-! ## Turns -/

/-- No day is picked where none is pending. -/
theorem pendingDay_eq_none {today : Int} : pendingDay digest s today = none ↔
    ∀ day ∈ s.catalog.reportDatesBefore today,
      current digest s.directory day (s.catalog.dailyReportInputToken day) = true := by
  have hperm := RoundRobin.rotated_perm (s.catalog.reportDatesBefore today) s.directory.cursor
  rw [pendingDay, RoundRobin.pick, List.find?_eq_none]
  constructor
  · intro h day hday
    have hnot := h day (hperm.symm.subset hday)
    rw [pending, Bool.not_eq_true', Bool.not_eq_false] at hnot
    exact hnot
  · intro h day hday
    rw [pending, Bool.not_eq_true', Bool.not_eq_false]
    exact h day (hperm.subset hday)

/-- A call with no pending day returns idle. -/
theorem run_idle {call : MaintenanceCall} (hpick : pendingDay digest s call.today = none) :
    (writeOnePending numbers digest call).run ReportWrite.apply s = (.ok .idle, s) := by
  rw [writeOnePending, Durable.look, Durable.read_bind, Durable.run_read, Durable.ret_bind, hpick]
  rfl

/-- **Only a call without a pick is idle.** -/
theorem pendingDay_of_idle {call : MaintenanceCall}
    (h : (writeOnePending numbers digest call).run ReportWrite.apply s = (.ok .idle, t)) :
    pendingDay digest s call.today = none ∧ t = s := by
  cases hpick : pendingDay digest s call.today with
  | none =>
    rw [run_idle hpick] at h
    exact ⟨rfl, (congrArg Prod.snd h).symm⟩
  | some day =>
    have hwp : (writeOnePending numbers digest call).wp ReportWrite.apply
        (fun outcome _ _ => outcome ≠ .idle) (fun _ _ _ => True) (fun _ _ => True) none s := by
      refine wp_writeOnePending hpick trivial trivial (fun _ _ => trivial)
        (fun _ _ => ⟨trivial, trivial⟩) (fun _ _ _ => ?_) fun _ _ _ => ⟨trivial, trivial, ?_⟩
      · exact ReportOutcome.noConfusion
      · exact ReportOutcome.noConfusion
    obtain ⟨_, hne⟩ := (Durable.run_of_wp hwp).1 .idle (congrArg Prod.fst h)
    exact absurd rfl hne

/-- What a call leaves of the files, but for those of its day. -/
structure SameBut (day : Int) (directory directory' : ReportDirectory) : Prop where
  receipts : ∀ day' ≠ day, directory'.receipts.get? day' = directory.receipts.get? day'
  json : ∀ day' ≠ day, directory'.json.get? day' = directory.json.get? day'
  csv : ∀ day' ≠ day, directory'.csv.get? day' = directory.csv.get? day'

/-- A rebuild of one day leaves the currency of the others. -/
theorem SameBut.current_eq {directory directory' : ReportDirectory}
    (h : SameBut day directory directory')
    {day' : Int} (hday : day' ≠ day) (token : InputToken) :
    current digest directory' day' token = current digest directory day' token := by
  rw [current, current, receiptOf, receiptOf, h.receipts day' hday, h.json day' hday,
    h.csv day' hday]

/-- The documents of a day change no other day's files. -/
theorem sameBut_withDocuments {directory directory' : ReportDirectory} {report : DailyReport}
    (h : SameBut day directory directory') :
    SameBut day directory (withDocuments directory' day report) where
  receipts := h.receipts
  json day' hday := by
    rw [withDocuments, SortedDict.get?_insert, if_neg hday]
    exact h.json day' hday
  csv day' hday := by
    rw [withDocuments, SortedDict.get?_insert, if_neg hday]
    exact h.csv day' hday

/-- The receipt of a day is no other day's receipt. -/
theorem sameBut_receipt {directory directory' : ReportDirectory}
    (h : SameBut day directory directory') :
    SameBut day directory
      { directory' with receipts := directory'.receipts.insert day receipt } where
  receipts day' hday := by
    rw [SortedDict.get?_insert, if_neg hday]
    exact h.receipts day' hday
  json := h.json
  csv := h.csv

/-- A call's turn: it is remembered, and the other days stay as they are. -/
structure Turn (call : MaintenanceCall) (day : Int) (s t : ReportSystem) : Prop where
  catalog : t.catalog = call.build.after ∨ t.catalog = call.finish
  cursor : t.directory.cursor = some day
  same : SameBut day s.directory t.directory

/-- **A call with a pending day takes its turn**: the cursor moves there, and other days are left
as they are. -/
theorem run_turn {call : MaintenanceCall} (hpick : pendingDay digest s call.today = some day) :
    Turn call day s ((writeOnePending numbers digest call).run ReportWrite.apply s).2 := by
  have hcursor : SameBut day s.directory { s.directory with cursor := some day } :=
    ⟨fun _ _ => rfl, fun _ _ => rfl, fun _ _ => rfl⟩
  have hwp : (writeOnePending numbers digest call).wp ReportWrite.apply
      (fun _ _ => Turn call day s) (fun _ _ => Turn call day s) (fun _ _ => True) none s := ?_
  · exact Durable.run_invariant hwp
  refine wp_writeOnePending hpick trivial trivial (fun message _ => ?_)
    (fun _ _ => ⟨trivial, trivial⟩) (fun report _ _ => ?_)
    fun report _ _ => ⟨trivial, trivial, ?_⟩
  · exact ⟨Or.inl rfl, rfl, hcursor⟩
  · exact ⟨Or.inl rfl, rfl, sameBut_withDocuments hcursor⟩
  · exact ⟨Or.inr rfl, rfl, sameBut_receipt (sameBut_withDocuments hcursor)⟩

variable (numbers digest) in
/-- The days that calls attempt, one call behind the other. -/
def attemptedDays : ReportSystem → List MaintenanceCall → List Int
  | _, [] => []
  | s, call :: calls => (pendingDay digest s call.today).toList ++
      attemptedDays ((writeOnePending numbers digest call).run ReportWrite.apply s).2 calls

variable (numbers digest) in
/-- **Calls take turns** while nothing is committed. -/
theorem takesTurns (c : ReportCatalog) (today : Int) :
    RoundRobin.TakesTurns (c.reportDatesBefore today) (pending digest)
      (fun s => s.directory.cursor)
      (fun s call => ((writeOnePending numbers digest call).run ReportWrite.apply s).2)
      (fun s => s.catalog = c) (fun call => call.today = today ∧ call.Quiet c) := by
  have hturn : ∀ {s : ReportSystem} {call : MaintenanceCall} {day : Int}, s.catalog = c →
      call.today = today ∧ call.Quiet c →
      RoundRobin.pick (pending digest s) (c.reportDatesBefore today) s.directory.cursor = some day →
      Turn call day s ((writeOnePending numbers digest call).run ReportWrite.apply s).2 := by
    intro s call day hs hcall hpick
    refine run_turn ?_
    rw [pendingDay, hs, hcall.1]
    exact hpick
  have hcatalog : ∀ {s t : ReportSystem} {call : MaintenanceCall} {day : Int}, call.Quiet c →
      Turn call day s t → t.catalog = c := by
    intro s t call day hquiet h
    rcases h.catalog with hafter | hfinish
    · exact hafter.trans hquiet.after
    · exact hfinish.trans hquiet.finish
  refine ⟨?_, ?_, ?_⟩
  · intro s call hs hcall
    cases hpick : pendingDay digest s call.today with
    | none =>
      rw [run_idle hpick]
      exact hs
    | some day => exact hcatalog hcall.2 (run_turn hpick)
  · intro s call day hs hcall hpick
    exact (hturn hs hcall hpick).cursor
  · intro s call day hs hcall hpick day' hday
    have h := hturn hs hcall hpick
    rw [pending, pending, hcatalog hcall.2 h, hs, h.same.current_eq hday]

theorem attemptedDays_eq {today : Int} : ∀ {calls : List MaintenanceCall} {s : ReportSystem},
    s.catalog = c → (∀ call ∈ calls, call.today = today ∧ call.Quiet c) →
      attemptedDays numbers digest s calls = RoundRobin.attempts (c.reportDatesBefore today)
        (pending digest) (fun s => s.directory.cursor)
        (fun s call => ((writeOnePending numbers digest call).run ReportWrite.apply s).2) s calls
  | [], _, _, _ => rfl
  | call :: calls, s, hs, hcalls => by
    have hcall := hcalls call List.mem_cons_self
    have hnext := (takesTurns numbers digest c today).keeps s
      call hs hcall
    rw [attemptedDays, RoundRobin.attempts, pendingDay, hs, hcall.1, attemptedDays_eq hnext
      fun other hother => hcalls other (List.mem_cons_of_mem _ hother)]

/-- **Each pending day is attempted** within as many calls as there are. -/
theorem attempted_of_pending {today : Int} {calls : List MaintenanceCall}
    (hcalls : ∀ call ∈ calls, call.today = today ∧ call.Quiet s.catalog)
    (hlength : ((s.catalog.reportDatesBefore today).filter (pending digest s)).length ≤
    calls.length)
    (hday : day ∈ s.catalog.reportDatesBefore today) (hpending : pending digest s day = true) :
    day ∈ attemptedDays numbers digest s calls := by
  have hnodup : (s.catalog.reportDatesBefore today).Nodup :=
    (List.perm_insertionSort _ _).nodup_iff.mpr (List.nodup_dedup _)
  rw [attemptedDays_eq rfl hcalls]
  exact RoundRobin.attempted_of_pending hnodup (takesTurns numbers digest s.catalog today) rfl
    hcalls hlength hday
    hpending

/-! ## Maintenance -/

/-- A sound directory is sound whatever the bodies. -/
theorem Sound.univ (h : Sound numbers digest bodies s) :
    Sound numbers digest Set.univ s := by
  refine ⟨fun day receipt hreceipt => ?_, fun _ _ _ => trivial, fun _ _ _ => trivial⟩
  obtain ⟨c₀, json, csv, hextends, hinputs, hpublishes, -, hdigests⟩ :=
    h.receipts day receipt hreceipt
  exact ⟨c₀, json, csv, hextends, hinputs, hpublishes, ⟨trivial, trivial⟩, hdigests⟩

/--
**Maintenance is faithful and fair**, from every state that commits, calls and crashes lead to,
where no two of the bodies that are written have the same digest. A day that looks current has a
report of the Catalog as it is, and where a call finds nothing to do, every closed day has. A day
whose inputs have changed during a call does not look current, wherever the call stops. While
nothing is committed, as many calls as there are pending days attempt each of them.
-/
theorem maintenance_faithful (hdigest : Set.InjOn digest bodies)
    (h : Reachable numbers digest bodies s) :
    (∀ day, current digest s.directory day (s.catalog.dailyReportInputToken day) = true →
      ∃ json csv, s.directory.json.get? day = some json ∧ s.directory.csv.get? day = some csv ∧
        Publishes numbers s.catalog day json csv) ∧
    (∀ call : MaintenanceCall, call.Follows s.catalog →
      (∀ t, (writeOnePending numbers digest call).run ReportWrite.apply s = (.ok .idle, t) →
        ∀ day ∈ t.catalog.reportDatesBefore call.today, ∃ json csv,
          t.directory.json.get? day = some json ∧ t.directory.csv.get? day = some csv ∧
            Publishes numbers t.catalog day json csv) ∧
      (∀ t, (t = ((writeOnePending numbers digest call).run ReportWrite.apply s).2 ∨
          ∃ n, t = ((writeOnePending numbers digest call).crashAt ReportWrite.apply n none s).state)
            →
        ∀ day, t.catalog.inputs day ≠ s.catalog.inputs day →
          current digest t.directory day (t.catalog.dailyReportInputToken day) = false)) ∧
    ∀ today calls, (∀ call ∈ calls, MaintenanceCall.today call = today ∧ call.Quiet s.catalog) →
      ((s.catalog.reportDatesBefore today).filter (pending digest s)).length ≤ calls.length →
      ∀ day ∈ s.catalog.reportDatesBefore today, pending digest s day = true →
        day ∈ attemptedDays numbers digest s calls := by
  have hs := sound_of_reachable h
  refine ⟨fun day hcurrent => hs.publishes hdigest hcurrent, fun call hcall => ⟨?_, ?_⟩, ?_⟩
  · intro t hrun day hday
    obtain ⟨hpick, rfl⟩ := pendingDay_of_idle hrun
    exact hs.publishes hdigest (pendingDay_eq_none.mp hpick day hday)
  · intro t ht day hinputs
    have hwrites : ∀ day, pendingDay digest s call.today = some day →
        Writes numbers Set.univ call.build day := fun _ _ _ _ => ⟨trivial, trivial⟩
    have hafter : After numbers digest Set.univ s t := by
      rcases ht with rfl | ⟨n, rfl⟩
      · exact Durable.run_invariant (wp_after none hs.univ hcall hwrites)
      · exact Durable.crashAt_invariant (wp_after none hs.univ hcall hwrites) n
    exact hafter.not_current hs.univ hinputs
  · intro today calls hcalls hlength day hday hpending
    exact attempted_of_pending hcalls hlength hday hpending

/-! ### An example -/

/-- A Catalog with one authorization, of the first day. -/
def oneAuthorization : ReportCatalog where
  metrics := []
  remote := [⟨"receipt", 5, "spot", "diff_depth", 7⟩]
  remoteEvents := []
  uniqueMetrics := List.nodup_nil
  uniqueRemote := List.nodup_singleton _

/-- The Catalog after one more of the same day. -/
def twoAuthorizations : ReportCatalog where
  metrics := []
  remote := [⟨"receipt", 5, "spot", "diff_depth", 7⟩, ⟨"second", 9, "spot", "diff_depth", 70⟩]
  remoteEvents := []
  uniqueMetrics := List.nodup_nil
  uniqueRemote := by decide

theorem oneAuthorization_extends : oneAuthorization.Extends twoAuthorizations :=
  ⟨List.prefix_rfl, ⟨[_], rfl⟩, List.prefix_rfl⟩

/-- A build under which the second authorization is committed, in front of its last loop. -/
def mixedBuild : ReportBuild where
  generatedAt := 86400000000001
  fails := none
  catalogAt loop _ := if loop = 3 then twoAuthorizations else oneAuthorization
  after := twoAuthorizations

theorem mixedBuild_follows : mixedBuild.Follows oneAuthorization := by
  have hcases : ∀ loop n, mixedBuild.catalogAt loop n = oneAuthorization ∨
      mixedBuild.catalogAt loop n = twoAuthorizations := by
    intro loop n
    by_cases hloop : loop = 3
    · exact Or.inr (if_pos hloop)
    · exact Or.inl (if_neg hloop)
  refine ⟨fun loop n => ?_, fun loop n => ?_, oneAuthorization_extends⟩
  · rcases hcases loop n with h | h
    · rw [h]
      exact ReportCatalog.Extends.refl _
    · rw [h]
      exact oneAuthorization_extends
  · rcases hcases loop n with h | h
    · rw [h]
      exact oneAuthorization_extends
    · rw [h]
      exact ReportCatalog.Extends.refl _

/-- A call on the second day, over a Catalog that stays as it is. -/
def quietCall (c : ReportCatalog) : MaintenanceCall := ⟨1, c.build 86400000000000, c⟩

theorem quietCall_follows (c : ReportCatalog) : (quietCall c).Follows c :=
  ⟨⟨fun _ _ => ReportCatalog.Extends.refl c, fun _ _ => ReportCatalog.Extends.refl c,
    ReportCatalog.Extends.refl c⟩, ReportCatalog.Extends.refl c⟩

/-- The call under which the second authorization is committed. -/
def mixedCall : MaintenanceCall := ⟨1, mixedBuild, twoAuthorizations⟩

/-- The bodies that the calls of the example write. -/
def sampleBodies : List String :=
  ([(quietCall oneAuthorization).build, mixedBuild, (quietCall twoAuthorizations).build].filterMap
    fun build => (build.report wholeNumbers 0).toOption).flatMap fun report =>
      [report.json, report.csv]

/-- Their digests. -/
def sampleBodyDigests : List String := [
  "47f74395ede7ee072a2a3efaf9ecdb0f47090a991b83448487d7dbed3098ec22",
  "a9083b54703448c373282c6d80d46b7d06504d5a1fad145eb1ad405dcb27c508",
  "fd361aa771217a4fcc70690e49d6f7406c714e1ab8968fe2c2cac1efb2f9f738",
  "73103c847dfefae043f2989b900fcba7b05620247b35ea3a8f47fc9c6dfa922e",
  "e637d8dcd67850d42910066dabf1861057b89fef9d932e1b7c139c25f848667a",
  "439a08af7d35aea15679c4e26f43f7c8a3e9a14927d46d5f4362e73395112c23"]

def sampleDigest (body : String) : String := sampleBodyDigests.getD (sampleBodies.idxOf body) ""

/-- The builds below all make a report. -/
theorem report_isOk {b : ReportBuild}
    (h : b ∈ [(quietCall oneAuthorization).build, mixedBuild,
      (quietCall twoAuthorizations).build]) : ∃ report, b.report wholeNumbers 0 = .ok report := by
  have hall : ∀ build ∈ [(quietCall oneAuthorization).build, mixedBuild,
      (quietCall twoAuthorizations).build], (build.report wholeNumbers 0).isOk = true := by
    decide +kernel
  cases hreport : b.report wholeNumbers 0 with
  | error message =>
    have hok := hall b h
    rw [hreport] at hok
    cases hok
  | ok report => exact ⟨report, rfl⟩

theorem length_sampleBodies : sampleBodies.length = sampleBodyDigests.length := by
  obtain ⟨first, hfirst⟩ := report_isOk (b := (quietCall oneAuthorization).build) (by simp)
  obtain ⟨second, hsecond⟩ := report_isOk (b := mixedBuild) (by simp)
  obtain ⟨third, hthird⟩ := report_isOk (b := (quietCall twoAuthorizations).build) (by simp)
  simp [sampleBodies, sampleBodyDigests, Except.toOption, hfirst, hsecond, hthird]

/-- The digest below tells its bodies apart. -/
theorem sampleDigest_injOn : Set.InjOn sampleDigest {body | body ∈ sampleBodies} := by
  have hlength := length_sampleBodies
  have hnodup : sampleBodyDigests.Nodup := by decide
  intro body hbody other hother h
  have hindex : sampleBodies.idxOf body < sampleBodyDigests.length :=
    hlength ▸ List.idxOf_lt_length_of_mem hbody
  have hindex' : sampleBodies.idxOf other < sampleBodyDigests.length :=
    hlength ▸ List.idxOf_lt_length_of_mem hother
  rw [sampleDigest, sampleDigest, List.getD_eq_getElem?_getD, List.getD_eq_getElem?_getD,
    List.getElem?_eq_getElem hindex, List.getElem?_eq_getElem hindex',
    Option.getD_some, Option.getD_some] at h
  exact (List.idxOf_inj hbody).mp (hnodup.getElem_inj_iff.mp h)

/-- A build of the example writes bodies of the example. -/
theorem writes_sampleBodies {build : ReportBuild}
    (h : build ∈ [(quietCall oneAuthorization).build, mixedBuild,
      (quietCall twoAuthorizations).build]) :
    Writes wholeNumbers {body | body ∈ sampleBodies} build 0 := by
  intro report hreport
  have hmem : report ∈ [(quietCall oneAuthorization).build, mixedBuild,
      (quietCall twoAuthorizations).build].filterMap
        fun build => (build.report wholeNumbers 0).toOption := by
    rw [List.mem_filterMap]
    exact ⟨build, h, by rw [hreport]; rfl⟩
  constructor
  · exact List.mem_flatMap.mpr ⟨report, hmem, List.mem_cons_self⟩
  · exact List.mem_flatMap.mpr ⟨report, hmem, List.mem_cons_of_mem _ List.mem_cons_self⟩

/-- Nothing is written yet. -/
def sampleStart : ReportSystem := ⟨oneAuthorization, none, .empty, .empty, .empty⟩

/-- A call has stopped behind its JSON. -/
def sampleCrashed : ReportSystem :=
  step wholeNumbers sampleDigest sampleStart (.maintainCrash (quietCall oneAuthorization) 3)

/-- The next one has seen a commit. -/
def sampleMixed : ReportSystem :=
  step wholeNumbers sampleDigest sampleCrashed (.maintain mixedCall)

/-- The last one was quiet. -/
def sampleDone : ReportSystem :=
  step wholeNumbers sampleDigest sampleMixed (.maintain (quietCall twoAuthorizations))

theorem sampleCrashed_eq :
    ∃ report, (quietCall oneAuthorization).build.report wholeNumbers 0 = .ok report ∧
    sampleCrashed = ⟨oneAuthorization, some 0, .empty, .insert .empty 0 report.json, .empty⟩ := by
  obtain ⟨report, hreport⟩ := report_isOk (List.mem_cons_self)
  refine ⟨report, hreport, ?_⟩
  have hpick : pendingDay sampleDigest sampleStart (quietCall oneAuthorization).today = some 0 := by
    decide +kernel
  show ((writeOnePending wholeNumbers sampleDigest (quietCall oneAuthorization)).crashAt
    ReportWrite.apply 3 none sampleStart).state = _
  rw [writeOnePending, Durable.look, Durable.read_bind, Durable.crashAt_read,
    Durable.ret_bind, hpick]
  simp only
  rw [writeLocked, hreport]
  rfl

theorem sampleMixed_eq :
    ∃ report, sampleMixed =
    ⟨twoAuthorizations, withDocuments sampleCrashed.directory 0 report⟩ := by
  obtain ⟨report, hreport⟩ := report_isOk (b := mixedBuild) (by simp)
  obtain ⟨old, hold, hcrash⟩ := sampleCrashed_eq
  have hpick : pendingDay sampleDigest sampleCrashed mixedCall.today = some 0 := by
    rw [hcrash]
    rfl
  refine ⟨report, ?_⟩
  show ((writeOnePending wholeNumbers sampleDigest mixedCall).run ReportWrite.apply
    sampleCrashed).2 = _
  rw [hcrash] at *
  rw [writeOnePending, Durable.look, Durable.read_bind, Durable.run_read, Durable.ret_bind, hpick]
  simp only
  rw [writeLocked, show mixedCall.build = mixedBuild from rfl, hreport]
  rfl

theorem sampleDone_eq : ∃ report,
    (quietCall twoAuthorizations).build.report wholeNumbers 0 = .ok report ∧
      sampleDone = ⟨twoAuthorizations, withDocuments
        { sampleMixed.directory with
          receipts := .insert .empty 0 ⟨twoAuthorizations.dailyReportInputToken 0,
            sampleDigest report.json, sampleDigest report.csv⟩ } 0 report⟩ := by
  obtain ⟨report, hreport⟩ := report_isOk (b := (quietCall twoAuthorizations).build) (by simp)
  obtain ⟨mixed, hmixed⟩ := sampleMixed_eq
  obtain ⟨old, -, hcrash⟩ := sampleCrashed_eq
  have hpick : pendingDay sampleDigest sampleMixed (quietCall twoAuthorizations).today =
    some 0 := by
    rw [hmixed, hcrash]
    rfl
  refine ⟨report, hreport, ?_⟩
  show ((writeOnePending wholeNumbers sampleDigest (quietCall twoAuthorizations)).run
    ReportWrite.apply sampleMixed).2 = _
  rw [writeOnePending, Durable.look, Durable.read_bind, Durable.run_read, Durable.ret_bind, hpick]
  simp only
  rw [writeLocked, hreport, hmixed, hcrash]
  simp [Durable.ofExcept, ReportWrite.apply, quietCall, ReportCatalog.build, withDocuments,
    receiptOf]

/-- The crash below is a run of the reporter. -/
theorem sampleCrashed_reachable :
    Reachable wholeNumbers sampleDigest {body | body ∈ sampleBodies} sampleCrashed := by
  have hstart : Reachable wholeNumbers sampleDigest {body | body ∈ sampleBodies} sampleStart :=
    TransitionSystem.Reachable.of_initial ⟨rfl, rfl, rfl⟩
  have hpick : pendingDay sampleDigest sampleStart (quietCall oneAuthorization).today = some 0 := by
    decide +kernel
  refine hstart.tail (a := .maintainCrash (quietCall oneAuthorization) 3)
    ⟨quietCall_follows oneAuthorization, fun day hday => ?_⟩ rfl
  cases Option.some.inj (hpick.symm.trans hday)
  exact writes_sampleBodies (by simp)

/-- So is the call after it, in the middle of which a row is committed. -/
theorem sampleMixed_reachable :
    Reachable wholeNumbers sampleDigest {body | body ∈ sampleBodies} sampleMixed := by
  obtain ⟨old, -, hcrash⟩ := sampleCrashed_eq
  have hpick : pendingDay sampleDigest sampleCrashed mixedCall.today = some 0 := by
    rw [hcrash]
    rfl
  have hfollows : mixedCall.Follows sampleCrashed.catalog := by
    rw [hcrash]
    exact ⟨mixedBuild_follows, ReportCatalog.Extends.refl _⟩
  refine sampleCrashed_reachable.tail (a := .maintain mixedCall) ⟨hfollows, fun day hday => ?_⟩ rfl
  cases Option.some.inj (hpick.symm.trans hday)
  exact writes_sampleBodies (by simp [mixedCall])

/-- The row committed in the middle of the build leaves the day pending. -/
theorem pendingDay_sampleMixed : pendingDay sampleDigest sampleMixed 1 = some 0 := by
  obtain ⟨mixed, hmixed⟩ := sampleMixed_eq
  obtain ⟨old, -, hcrash⟩ := sampleCrashed_eq
  rw [hmixed, hcrash]
  rfl

theorem sampleMixed_catalog : sampleMixed.catalog = twoAuthorizations := by
  obtain ⟨mixed, hmixed⟩ := sampleMixed_eq
  rw [hmixed]

/-- The quiet call ends the run. -/
theorem sampleDone_reachable :
    Reachable wholeNumbers sampleDigest {body | body ∈ sampleBodies} sampleDone := by
  refine sampleMixed_reachable.tail (a := .maintain (quietCall twoAuthorizations))
    ⟨sampleMixed_catalog ▸ quietCall_follows twoAuthorizations, fun day hday => ?_⟩ rfl
  cases Option.some.inj (pendingDay_sampleMixed.symm.trans hday)
  exact writes_sampleBodies (by simp)

/-- **A crash, a commit in the middle of a build, and a quiet call.** The call that sees the commit
does not make its day look current, the day is attempted again, and then there is nothing more to
do: its files are a report of both authorizations. -/
theorem maintenance_faithful_sample :
    sampleCrashed.directory.json.keys = [0] ∧ sampleCrashed.directory.csv.keys = [] ∧
    current sampleDigest sampleMixed.directory 0 (sampleMixed.catalog.dailyReportInputToken 0) =
      false ∧
    0 ∈ attemptedDays wholeNumbers sampleDigest sampleMixed [quietCall twoAuthorizations] ∧
    ∀ day ∈ twoAuthorizations.reportDatesBefore 1, ∃ json csv,
      sampleDone.directory.json.get? day = some json ∧
      sampleDone.directory.csv.get? day = some csv ∧
      Publishes wholeNumbers twoAuthorizations day json csv := by
  obtain ⟨old, -, hcrash⟩ := sampleCrashed_eq
  have hmixedCall : mixedCall.Follows sampleCrashed.catalog := by
    rw [hcrash]
    exact ⟨mixedBuild_follows, ReportCatalog.Extends.refl _⟩
  have hchanged : sampleMixed.catalog.inputs 0 ≠ sampleCrashed.catalog.inputs 0 := by
    have hone : sampleCrashed.catalog = oneAuthorization := by rw [hcrash]
    rw [sampleMixed_catalog, hone]
    decide
  have hpending : pending sampleDigest sampleMixed 0 = true := by
    obtain ⟨mixed, hmixed⟩ := sampleMixed_eq
    rw [hmixed, hcrash]
    rfl
  obtain ⟨done, -, hdone⟩ := sampleDone_eq
  have hcatalog : sampleDone.catalog = twoAuthorizations := by rw [hdone]
  have hidle : (writeOnePending wholeNumbers sampleDigest (quietCall twoAuthorizations)).run
      ReportWrite.apply sampleDone = (.ok .idle, sampleDone) := by
    refine run_idle (pendingDay_eq_none.mpr fun day hday => ?_)
    have hday' : day ∈ twoAuthorizations.reportDatesBefore 1 := hcatalog ▸ hday
    cases List.mem_singleton.mp hday'
    rw [hdone]
    exact current_iff.mpr ⟨_, rfl, receiptOf_withDocuments _ done _⟩
  refine ⟨by rw [hcrash]; rfl, by rw [hcrash]; rfl, ?_, ?_, ?_⟩
  · exact ((maintenance_faithful sampleDigest_injOn sampleCrashed_reachable).2.1 mixedCall
      hmixedCall).2 sampleMixed (Or.inl rfl) 0 hchanged
  · refine (maintenance_faithful sampleDigest_injOn sampleMixed_reachable).2.2 1
      [quietCall twoAuthorizations] ?_ ?_ 0 ?_ hpending
    · intro call hcall
      cases List.mem_singleton.mp hcall
      exact ⟨rfl, sampleMixed_catalog.symm, sampleMixed_catalog.symm⟩
    · rw [sampleMixed_catalog]
      exact List.length_filter_le _ _
    · rw [sampleMixed_catalog]
      decide
  · have h := ((maintenance_faithful sampleDigest_injOn sampleDone_reachable).2.1
      (quietCall twoAuthorizations) (hcatalog ▸ quietCall_follows twoAuthorizations)).1
        sampleDone hidle
    rw [hcatalog] at h
    exact h

end DailyReporter

end MarketDataRecorder
