import SupplyGauge.CommandLine.Usage
import SupplyGauge.Config.Loader
import SupplyGauge.Daemon.Run
import SupplyGauge.Log.Journal
/-! # The program

The program reads its options and sets up logging. Then it checks settings, collects
once, or runs the daemon. Failures while it collects or runs end it with status one
and a log entry; failures before that, and those of a check that are no errors of
the configuration, go to the caller.
-/

namespace SupplyGauge.CommandLine

open Config (Loader Settings)
open Log (Journal Paper Setup Stamp)

/-- What surrounds a run: whether errors go to a terminal, what log lines show of the moment, how
the broker answers, what happens around the daemon, the moment at which it is cut short, and
the digits of a client without a name. -/
structure Surroundings where
  isTerminal : Bool
  stamp : Stamp
  script : Mqtt.Script
  steps : List (Instant × Daemon.Step)
  limit : Instant
  digits : String

/-- Why a run fails. -/
inductive Failure where
  | load (e : Config.LoadError)
  | logging (e : Log.SetupError)
  | files (f : Files.Failure)
  | unwritable (fault : Numeral.Fault)
  | setting (e : Daemon.SettingError)
  | client (e : Mqtt.ClientError)
  | interrupted
  | cancelled
  deriving DecidableEq

def Failure.message : Failure → String
  | .load e => e.message
  | .logging e => e.message
  | .files f => f.message
  | .unwritable fault => fault.message
  | .setting e => e.message
  | .client e => e.message
  | .interrupted | .cancelled => ""

/-- How a run ends: with a status, with a status that the options alone decide, or with a failure
that goes to the caller. -/
inductive Exit where
  | status (n : Nat)
  | early (n : Nat)
  | failed (f : Failure)
  deriving DecidableEq

/-- The program while it runs: the journal and what it writes on, what has been printed, and what
has happened around the daemon. -/
structure Session where
  journal : Journal := {}
  paper : Paper
  printed : String := ""
  events : List (Instant × Event) := []

/-- The component under which the program reports. -/
def component : String := "main"

namespace Session

def print (s : Session) (line : String) : Session := { s with printed := s.printed ++ line ++ "\n" }

def complain (s : Session) (line : String) : Session := { s with paper := s.paper.print line }

def recordAll (s : Session) (w : Surroundings) (entries : List Log.Entry) : Session :=
  let (journal, paper) := s.journal.recordAll w.stamp entries s.paper
  { s with journal, paper }

def record (s : Session) (w : Surroundings) (e : Log.Entry) : Session := s.recordAll w [e]

def setUp (s : Session) (w : Surroundings) (setup : Setup) : Except Failure Unit × Session :=
  let (r, journal, files) := s.journal.setUp setup w.isTerminal s.paper.files
  (r.mapError .logging, { s with journal, paper := { s.paper with files } })

/-- What is logged about settings that have been loaded: entries, up to one that cannot be
written. -/
def loadReport (path : String) (settings : Settings) (warnings : List Config.Warning) :
    List (Except Numeral.Fault Log.Entry) :=
  let note (severity : Log.Severity) := Log.note severity Daemon.component
  let mqtt := settings.mqtt
  let supply := settings.supply
  let broker : Except Numeral.Fault Log.Entry := do
    let host ← mqtt.host.display
    let port ← Numeral.textOf mqtt.port
    return note .debug s!"MQTT: {host}:{port}, topic prefix {← mqtt.topicPrefix.display}"
  .ok (note .info s!"Loaded configuration from {path}") :: broker ::
    .ok (note .debug s!"sysfs: {supply.sysfs}, ignored devices: {supply.ignoredDevices}") ::
    warnings.map fun w => .ok (note .warning s!"Config warning: {w.message}")

/-- Items up to the first fault, and that fault. -/
def untilFault {α : Type} : List (Except Numeral.Fault α) → List α × Except Numeral.Fault Unit
  | [] => ([], .ok ())
  | .error f :: _ => ([], .error f)
  | .ok x :: rest =>
    let (before, r) := untilFault rest
    (x :: before, r)

/-- Loads settings and sets up logging: as the settings say, or by options that take over the
file of the settings when they name none. -/
def load (s : Session) (w : Surroundings) (path : String) (chosen : Option Setup) :
    Except Failure Settings × Session :=
  match Loader.fresh.loadFile s.paper.files (.ofString path) with
  | (.error e, _) => (.error (.load e), s)
  | (.ok settings, loader) =>
    let setup := match chosen with
      | some setup => setup.withFileOf settings.logging
      | none => .ofSettings settings.logging
    match s.setUp w setup with
    | (.error f, s) => (.error f, s)
    | (.ok (), s) =>
      let (entries, r) := untilFault (loadReport path settings (loader.validate settings))
      ((r.map fun _ => settings).mapError .unwritable, s.recordAll w entries)

/-- What a check of settings prints: lines, up to one that cannot be written. -/
def checkReport (settings : Settings) (warnings : List Config.Warning) :
    List (Except Numeral.Fault String) :=
  let mqtt := settings.mqtt
  let supply := settings.supply
  let broker : Except Numeral.Fault String := do
    let host ← mqtt.host.display
    let port ← Numeral.textOf mqtt.port
    return s!"  MQTT: {host}:{port} (prefix {← mqtt.topicPrefix.display})"
  (if warnings.isEmpty then []
    else .ok s!"Configuration warnings ({warnings.length}):" ::
      warnings.map fun w => .ok s!"  - {w.message}") ++
  [.ok "", .ok "Configuration summary:", broker,
    .ok s!"  Logging level: {settings.logging.level}"] ++
  (match Log.logFile? settings.logging with
    | some path => [path.display.map fun p => s!"  Log file: {p}"]
    | none => []) ++
  [.ok s!"  sysfs: {supply.sysfs}",
    .ok s!"  Ignored devices: {supply.ignoredDevices}",
    .ok s!"  Update interval: {supply.updateInterval.text .plain}s",
    .ok "", .ok "Configuration is valid!"]

def check (s : Session) (path : String) : Exit × Session :=
  match Loader.fresh.loadFile s.paper.files (.ofString path) with
  | (.error e, _) =>
    if e.isConfiguration then (.status 1, s.complain s!"Configuration error: {e.message}")
    else (.failed (.load e), s)
  | (.ok settings, loader) =>
    let (lines, r) := untilFault (checkReport settings (loader.validate settings))
    (match r with
      | .ok () => .status 0
      | .error f => .failed (.unwritable f), lines.foldl print s)

def collectOnce (s : Session) (w : Surroundings) (settings : Settings) :
    Except Failure Nat × Session :=
  match Supply.Collector.ofSettings settings.supply with
  | .error e => (.error (.setting (.pattern e)), s)
  | .ok collector =>
    let (log, r) := collector.safeCollect s.paper.files
    let s := s.recordAll w log
    match r.error with
    | some e => (.ok 1, s.complain s!"Collection failed: {e}")
    | none => (.ok 0, (r.samples.map Metric.Sample.line).foldl print s)

def serve (s : Session) (w : Surroundings) (settings : Settings) : Except Failure Nat × Session :=
  let scene : Scene := { script := w.script }
  match Daemon.State.make settings w.digits s.journal w.stamp s.paper true scene with
  | .error e => (.error (.setting e), s)
  | .ok d =>
    let d := d.run w.steps w.limit
    let s := { s with
      journal := d.journal
      paper := d.paper
      events := d.client.scene.events }
    match d.ending with
    | .returned => (.ok 0, s)
    | .failed e => (.error (.client e), s)
    | .interrupted => (.error .interrupted, s)
    | .cancelled => (.error .cancelled, s)

def conclude (s : Session) (w : Surroundings) : Except Failure Nat → Exit × Session
  | .ok n => (.status n, s)
  | .error .interrupted =>
    (.status 0, s.record w (Log.note .info component "Interrupted by user"))
  | .error .cancelled => (.failed .cancelled, s)
  | .error (.load e) =>
    if e.isConfiguration then
      (.status 1, s.record w (Log.note .error component s!"Configuration error: {e.message}"))
    else (.status 1, s.record w ⟨.error, component, s!"Fatal error: {e.message}", true⟩)
  | .error f => (.status 1, s.record w ⟨.error, component, s!"Fatal error: {f.message}", true⟩)

def withSettings (s : Session) (w : Surroundings) (path : String) (setup : Setup)
    (next : Session → Settings → Except Failure Nat × Session) : Exit × Session :=
  match s.load w path (some setup) with
  | (.error f, s) => s.conclude w (.error f)
  | (.ok settings, s) =>
    let (r, s) := next s settings
    s.conclude w r

end Session

def Options.consoleLevel (o : Options) : String :=
  if o.debug then "debug" else if o.verbose then "info" else if o.quiet then "error"
  else "warning"

/-- A path or text that is not empty. -/
def given (text : Option String) : Option String := text.filter (· ≠ "")

def Options.setup (o : Options) : Setup :=
  let setup : Setup := { consoleLevel := o.consoleLevel, consoleColors := !o.noColor }
  match given o.logFile with
  | some path => { setup with fileEnabled := true, filePath := .text path }
  | none => setup

def Options.run (o : Options) (w : Surroundings) (s : Session) : Exit × Session :=
  match s.setUp w o.setup with
  | (.error f, s) => (.failed f, s)
  | (.ok (), s) =>
    if o.once && o.config.isNone then
      let (r, s) := s.collectOnce w {}
      match r with
      | .ok n => (.status n, s)
      | .error f => (.failed f, s)
    else
      let path := Files.Path.ofString ((given o.config).getD defaultConfigPath)
      match s.paper.files.pathExists path with
      | .error f => (.failed (.files f), s)
      | .ok false =>
        (.status 1, s.complain s!"Configuration file not found: {path.toString}")
      | .ok true =>
        if o.validate then s.check path.toString
        else s.withSettings w path.toString o.setup fun s settings =>
          if o.once then s.collectOnce w settings else s.serve w settings

def run (words : List String) (w : Surroundings) (files : Files.Tree) : Exit × Session :=
  let s : Session := { paper := { files } }
  match Request.ofWords words with
  | .error e => (.early 2, { s with paper := { s.paper with console := e.report } })
  | .ok .help => (.early 0, { s with printed := help })
  | .ok .version => (.early 0, { s with printed := version })
  | .ok (.run o) => o.run w s

end SupplyGauge.CommandLine
