import NameCatalog.CommandLine.Run
import NameCatalog.Proofs.Log.SetUp

/-!
# Accounts of runs

The account of a run is what the run does but for the log: how it ends, its output, what it logs
before it sets the log up and behind that, and for which level it does so. The log that a run finds
has no part in its account, and decides only which of the messages are written and in which form.
-/

namespace NameCatalog

namespace LogState

/-- The log of a process in which the first set-up, if there was one, was for the given level. -/
def ofLevel? : Option Severity → LogState
  | none => initial
  | some level => ⟨true, level.rank, 1⟩

theorem setup_ofLevel?_some (first level : Severity) :
    ((ofLevel? (some first)).setup (.text level.word)).1 = ofLevel? (some first) := by
  rw [setup_of_configured rfl]

theorem setup_ofLevel?_none (level : Severity) :
    ((ofLevel? none).setup (.text level.word)).1 = ofLevel? (some level) := by
  rw [ofLevel?, setup_initial (upperCase_word level)]
  rfl

end LogState

namespace CommandLine

open LogState (Line)

namespace Fault

def ending (f : Fault) : Ending := if f.isReported then .failure f else .broken f

def closing (f : Fault) : List Line :=
  if f.isReported then [.bare ("Error: " ++ f.message)] else []

end Fault

structure Account where
  ending : Ending
  output : Text
  early : List Message
  level? : Option Severity
  late : List Message
  closing : List Line

namespace Account

def ofFault (f : Fault) (early : List Message) (level? : Option Severity) (late : List Message) :
    Account :=
  ⟨f.ending, "", early, level?, late, f.closing⟩

def ofStop : Stop → Account
  | .help scope => ⟨.success, scope.help, [], none, [], []⟩
  | .misuse scope m => ⟨.misuse, "", [], none, [], [.bare (scope.misuseText m)]⟩

/-- The account of a run that got its settings. -/
def ofSettings (host : Host) (request : Request) (early : List Message) (settings : Settings) :
    Account :=
  let level := levelFor request settings
  let done := request.task.output settings host
  let late := done.notices.map Notice.message
  match done.result with
  | .ok output => ⟨.success, output, early, some level, late, []⟩
  | .error f => ofFault f early (some level) late

def ofRequest (environment : List (Text × Text)) (host : Host) (request : Request) :
    Account :=
  if request.version then ⟨.success, versionText, [], none, [], []⟩
  else
    let (messages, settings) := Settings.load [] environment host
    match settings with
    | .error f => ofFault (.settings f) messages none []
    | .ok settings => ofSettings host request messages settings

def of (environment : List (Text × Text)) (host : Host) (argv : List Text) : Account :=
  match Request.ofArguments argv with
  | .error stop => ofStop stop
  | .ok request => ofRequest environment host request

theorem of_eq_ofSettings {environment : List (Text × Text)} {host : Host}
    {argv : List Text} {request : Request} {settings : Settings}
    (hrequest : Request.ofArguments argv = .ok request) (hversion : request.version = false)
    (hsettings : (Settings.load [] environment host).2 = .ok settings) :
    of environment host argv =
      ofSettings host request (Settings.load [] environment host).1 settings := by
  rw [of, hrequest]
  simp only [ofRequest, hversion, Bool.false_eq_true, if_false, hsettings]

/-- The log that is left by a run which finds the given log. -/
def logBehind (a : Account) (log : LogState) : LogState :=
  match a.level? with
  | none => log
  | some level => (log.setup (.text level.word)).1

/-- The report of a run, by the logs that its messages find. -/
def reportAt (a : Account) (before behind : LogState) : Report :=
  ⟨a.ending, a.output, before.writeAll a.early ++ behind.writeAll a.late ++ a.closing⟩

theorem reportAt_ofFault (f : Fault) (early : List Message) (level? : Option Severity)
    (late : List Message) (before behind : LogState) :
    (ofFault f early level? late).reportAt before behind =
      .ofFault f (before.writeAll early ++ behind.writeAll late) := by
  unfold Report.ofFault
  split
  · next h => simp [reportAt, ofFault, Fault.ending, Fault.closing, h]
  · next h => simp [reportAt, ofFault, Fault.ending, Fault.closing, h]

theorem runWith_eq (log : LogState) (host : Host) (request : Request) (early : List Message)
    (settings : Settings) :
    runWith log host request settings (log.writeAll early) =
      let a := ofSettings host request early settings
      (a.logBehind log, a.reportAt log (a.logBehind log)) := by
  have hsetup := log.setup_word (levelFor request settings)
  rw [runWith, ofSettings]
  generalize hattempt : log.setup (.text (levelFor request settings).word) = attempt at hsetup
  obtain ⟨behind, fault⟩ := attempt
  obtain rfl : fault = none := hsetup
  cases hdone : (request.task.output settings host).result with
  | ok output => simp [hdone, reportAt, logBehind, hattempt, Report.ofOutput]
  | error f =>
      simp only [hdone, reportAt_ofFault]
      simp [logBehind, ofFault, hattempt]

/-- The account of a run and the log that it finds make up the run. -/
theorem run_eq (log : LogState) (environment : List (Text × Text)) (host : Host)
    (argv : List Text) :
    run log environment host argv =
      let a := of environment host argv
      (a.logBehind log, a.reportAt log (a.logBehind log)) := by
  rw [run, of]
  cases Request.ofArguments argv with
  | error stop =>
      cases stop with
      | help scope => rfl
      | misuse scope m => rfl
  | ok request =>
      simp only [ofRequest]
      split
      · rfl
      · generalize Settings.load [] environment host = loaded
        obtain ⟨messages, settings⟩ := loaded
        cases settings with
        | error f =>
            have hreport := reportAt_ofFault (.settings f) messages none [] log log
            rw [show log.writeAll [] = [] from rfl, List.append_nil] at hreport
            exact Prod.ext rfl hreport.symm
        | ok settings => exact runWith_eq log host request messages settings

/-! ## Runs of one process -/

theorem logBehind_ofLevel? (a : Account) (first : Option Severity) :
    a.logBehind (.ofLevel? first) = .ofLevel? (first.or a.level?) := by
  unfold logBehind
  cases a.level? with
  | none => rw [Option.or_none]
  | some level =>
      cases first with
      | none => exact LogState.setup_ofLevel?_none level
      | some first => exact LogState.setup_ofLevel?_some first level

theorem or_findSome? {α β : Type} (f : α → Option β) (first : Option β) (a : α) (as : List α) :
    (first.or (f a)).or (as.findSome? f) = first.or ((a :: as).findSome? f) := by
  rw [List.findSome?_cons, Option.or_assoc]
  cases f a with
  | none => rfl
  | some b => rfl

/-- The level for which a run sets the log up, if it gets so far. -/
def levelOf (host : Host) (r : List (Text × Text) × List Text) : Option Severity :=
  (of r.1 host r.2).level?

/-- Each run of a process finds the log as the first run left it that set it up. -/
theorem getElem?_runAll (host : Host) (first : Option Severity)
    (runs : List (List (Text × Text) × List Text)) (i : Nat) :
    (runAll (.ofLevel? first) host runs)[i]? =
      runs[i]?.map fun r =>
        let before := first.or ((runs.take i).findSome? (levelOf host))
        (of r.1 host r.2).reportAt (.ofLevel? before)
          (.ofLevel? (before.or (levelOf host r))) := by
  induction runs generalizing first i with
  | nil => rfl
  | cons r rest ih =>
      have hbehind := (of r.1 host r.2).logBehind_ofLevel? first
      cases i with
      | zero =>
          simp only [runAll, run_eq, hbehind]
          simp [levelOf]
      | succ i =>
          simp only [runAll, run_eq, hbehind, List.getElem?_cons_succ, ih, List.take_succ_cons]
          simp only [← or_findSome?]
          rfl

end Account

end CommandLine

end NameCatalog
