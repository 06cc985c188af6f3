import SupplyGauge.CommandLine.Program
import SupplyGauge.Proofs.Config.Failures
import SupplyGauge.Proofs.Log.Layout
import SupplyGauge.Proofs.Log.Outlets

/-! # The log that flags and settings give

Flags of the command line come before the settings of the log. The log file is that of the flags,
and otherwise that of the settings with its level and limits. The level, the colors and the layout
of the console are those of the flags too, but without a flag they are the program's own, whatever
the settings say.
-/

namespace SupplyGauge.Log.Template

/-- Only the default layout itself gives the template of the default layout. -/
theorem ofScalar_eq_default_iff {v : Config.Scalar} :
    ofScalar v = .ok ⟨Config.defaultLogFormat⟩ ↔ v = .text Config.defaultLogFormat := by
  constructor
  · intro h
    unfold ofScalar at h
    split at h
    next =>
      have hbare : bare.text = Config.defaultLogFormat := congrArg text (Except.ok.inj h)
      exact absurd hbare (by decide)
    next =>
      split at h
      next written _ =>
        split at h
        · rw [show written = Config.defaultLogFormat from congrArg text (Except.ok.inj h)]
        · nomatch h
      next => nomatch h
  · rintro rfl
    exact ofScalar_defaultLogFormat

end SupplyGauge.Log.Template

namespace SupplyGauge.CommandLine

open Config (Loader LogSettings Settings)
open Files (Tree)
open Log (Journal Outlet Setup Severity Template)

namespace Options

variable (o : Options)

/-! ## The setup of the options -/

theorem format_setup : o.setup.format = .text Config.defaultLogFormat := by
  unfold setup
  split <;> rfl

theorem fileEnabled_setup : o.setup.fileEnabled = (given o.logFile).isSome := by
  unfold setup
  split
  next hgiven => rw [hgiven]; rfl
  next hgiven => rw [hgiven]; rfl

theorem filePath_setup {text : String} (htext : given o.logFile = some text) :
    o.setup.filePath = .text text := by
  unfold setup
  rw [htext]

/-- The level of the console that a flag gives. -/
def levelFlag? : Option String :=
  if o.debug then some "debug" else if o.verbose then some "info"
  else if o.quiet then some "error" else none

theorem consoleLevel_eq : o.consoleLevel = o.levelFlag?.getD "warning" := by
  unfold consoleLevel levelFlag?
  repeat' split
  all_goals rfl

/-- The setup that flags and settings ask for together: that of the settings, with what the flags
give instead. A file that a flag names has no level and limits of its own in the settings. -/
def wanted (l : LogSettings) : Setup :=
  let setup := { Setup.ofSettings l with
    consoleLevel := o.levelFlag?.getD l.level
    consoleColors := !o.noColor && l.colors }
  match given o.logFile with
  | some path =>
    { setup with
      fileEnabled := true
      filePath := .text path
      fileLevel := ({} : Setup).fileLevel
      fileLimit := ({} : Setup).fileLimit
      fileKeep := ({} : Setup).fileKeep }
  | none => setup

/-- The file is the one that is asked for. -/
theorem fileOutlets_withFileOf (l : LogSettings) (template : Template) (files : Tree) :
    (o.setup.withFileOf l).fileOutlets template files =
      (o.wanted l).fileOutlets template files := by
  have hfree := o.fileEnabled_setup
  unfold wanted
  dsimp only
  rcases hgiven : given o.logFile with _ | text <;> rw [hgiven] at hfree
  · unfold Setup.ofSettings
    rcases hfile : Log.logFile? l with _ | path
    · rw [Setup.withFileOf_of_none hfile]
      unfold Setup.fileOutlets
      rw [hfree]
      rfl
    · rw [Setup.withFileOf_of_free hfree hfile]
      rfl
  · rw [Setup.withFileOf_of_taken hfree]
    unfold setup
    rw [hgiven]
    rfl

/-- The level of the console is the one that is asked for where a flag gives it, and else where the
settings ask for the program's own. -/
theorem level_eq_iff (l : LogSettings) (template : Template) (isTerminal : Bool) :
    (Journal.console o.setup template isTerminal).level =
        (Journal.console (o.wanted l) template isTerminal).level ↔
      o.levelFlag? ≠ none ∨ Severity.ofWord l.level = .warning := by
  have hown : o.setup.consoleLevel = o.consoleLevel := by
    unfold setup
    split <;> rfl
  have hwanted : (o.wanted l).consoleLevel = o.levelFlag?.getD l.level := by
    unfold wanted
    dsimp only
    split <;> rfl
  unfold Journal.console
  rw [hown, o.consoleLevel_eq, hwanted]
  rcases o.levelFlag? with _ | word
  · have hwarning : Severity.ofWord "warning" = .warning := by decide
    simp [hwarning, eq_comm]
  · simp

/-- The console shows the colors that are asked for where the flag or the absence of a terminal
decides, and else where the settings ask for colors. -/
theorem finish_eq_iff (l : LogSettings) (template : Template) (isTerminal : Bool) :
    (Journal.console o.setup template isTerminal).finish =
        (Journal.console (o.wanted l) template isTerminal).finish ↔
      o.noColor = true ∨ isTerminal = false ∨ l.colors = true := by
  have hown : o.setup.consoleColors = !o.noColor := by
    unfold setup
    split <;> rfl
  have hwanted : (o.wanted l).consoleColors = (!o.noColor && l.colors) := by
    unfold wanted
    dsimp only
    split <;> rfl
  unfold Journal.console
  rw [hown, hwanted]
  cases o.noColor <;> cases isTerminal <;> cases l.colors <;> simp

theorem format_wanted (l : LogSettings) : (o.wanted l).format = l.format := by
  unfold wanted Setup.ofSettings
  dsimp only
  split <;> split <;> rfl

end Options

/-- A run that sees nothing and is cut short at once. -/
def solitude : Surroundings where
  isTerminal := false
  stamp := ⟨"", ""⟩
  script := {}
  steps := []
  limit := .zero
  digits := ""

namespace Session

/-- The log of options without a log file can be set up. -/
theorem setUp_console (s : Session) (w : Surroundings) {o : Options}
    (hgiven : given o.logFile = none) :
    ∃ journal, s.setUp w o.setup = (.ok (), { s with journal }) := by
  have htemplate : Template.ofScalar o.setup.format = .ok ⟨Config.defaultLogFormat⟩ := by
    rw [o.format_setup, Template.ofScalar_defaultLogFormat]
  have hfree : o.setup.fileEnabled = false := by
    rw [o.fileEnabled_setup, hgiven]
    rfl
  obtain ⟨journal, hset⟩ := s.journal.setUp_console htemplate hfree w.isTerminal s.paper.files
  unfold setUp
  rw [hset]
  exact ⟨journal, rfl⟩

/-- Items are read up to a fault exactly if there is one. -/
theorem untilFault_error_iff {α : Type} (l : List (Except Numeral.Fault α)) :
    (∃ fault, (untilFault l).2 = .error fault) ↔ ∃ fault, .error fault ∈ l := by
  induction l with
  | nil => simp [untilFault]
  | cons item rest ih =>
      cases item with
      | error fault => simp [untilFault]
      | ok x => simpa [untilFault] using ih

/-- Settings that are loaded have had their log set up, and only written to since. -/
theorem load_eq_ok {s : Session} {w : Surroundings} {path : String} {chosen : Setup}
    {settings : Settings} (h : (s.load w path (some chosen)).1 = .ok settings) :
    ∃ s' entries, s.setUp w (chosen.withFileOf settings.logging) = (.ok (), s') ∧
      (s.load w path (some chosen)).2 = s'.recordAll w entries := by
  unfold load at h ⊢
  rcases hfile : Loader.fresh.loadFile s.paper.files (.ofString path) with ⟨e | loaded, loader⟩ <;>
    rw [hfile] at h
  · contradiction
  dsimp only at h ⊢
  rcases hset : s.setUp w (chosen.withFileOf loaded.logging) with ⟨f | _, s'⟩ <;> rw [hset] at h
  · contradiction
  dsimp only at h ⊢
  generalize untilFault (loadReport path loaded (loader.validate loaded)) = read at h ⊢
  rcases read with ⟨entries, fault | _⟩
  · contradiction
  · obtain rfl : loaded = settings := Except.ok.inj h
    exact ⟨s', entries, hset, rfl⟩

/-- Settings are loaded if their file can be read, their log can be set up, and what is logged about
them can be written. -/
theorem load_of {s s' : Session} {w : Surroundings} {path : String} {chosen : Setup}
    {settings : Settings} {loader : Loader}
    (hfile : Loader.fresh.loadFile s.paper.files (.ofString path) = (.ok settings, loader))
    (hset : s.setUp w (chosen.withFileOf settings.logging) = (.ok (), s'))
    (hreport : ∀ fault, .error fault ∉ loadReport path settings (loader.validate settings)) :
    (s.load w path (some chosen)).1 = .ok settings := by
  have hread : ∀ fault, (untilFault (loadReport path settings (loader.validate settings))).2 ≠
      .error fault := fun fault hfault =>
    absurd ((untilFault_error_iff _).mp ⟨fault, hfault⟩) (by simpa using hreport)
  unfold load
  rw [hfile]
  dsimp only
  rw [hset]
  dsimp only
  generalize untilFault (loadReport path settings (loader.validate settings)) = read at hread ⊢
  rcases read with ⟨entries, fault | _⟩
  · exact absurd rfl (hread fault)
  · rfl

/-- After settings have been loaded under flags, the log file is the one that flags and settings ask
for together. The console is so too with respect to each of its level, its colors and its layout
exactly if a flag gives it, or the settings ask for what the program has without a flag. -/
theorem load_log {s : Session} {w : Surroundings} {path : String} {o : Options}
    {settings : Settings} (h : (s.load w path (some o.setup)).1 = .ok settings) :
    let wanted := o.wanted settings.logging
    ∃ console : Log.Console,
      (s.load w path (some o.setup)).2.journal.outlets =
          .console console :: wanted.fileOutlets console.template s.paper.files ∧
        (console.level = (Journal.console wanted console.template w.isTerminal).level ↔
          o.levelFlag? ≠ none ∨ Severity.ofWord settings.logging.level = .warning) ∧
        (console.finish = (Journal.console wanted console.template w.isTerminal).finish ↔
          o.noColor = true ∨ w.isTerminal = false ∨ settings.logging.colors = true) ∧
        (Template.ofScalar wanted.format = .ok console.template ↔
          settings.logging.format = .text Config.defaultLogFormat) := by
  intro wanted
  obtain ⟨s', entries, hset, hload⟩ := load_eq_ok h
  unfold setUp at hset
  rcases hjournal : s.journal.setUp (o.setup.withFileOf settings.logging) w.isTerminal
    s.paper.files with ⟨e | _, journal, files⟩ <;> rw [hjournal] at hset
  · have hfailed : Except.error (Failure.logging e) = Except.ok () := congrArg Prod.fst hset
    contradiction
  obtain rfl := congrArg Prod.snd hset
  obtain ⟨template, htemplate, houtlets⟩ := Journal.setUp_outlets hjournal
  rw [Setup.format_withFileOf, o.format_setup, Template.ofScalar_defaultLogFormat] at htemplate
  obtain rfl := Except.ok.inj htemplate
  rw [Setup.console_withFileOf, o.fileOutlets_withFileOf] at houtlets
  refine ⟨Journal.console o.setup ⟨Config.defaultLogFormat⟩ w.isTerminal, ?_, ?_, ?_, ?_⟩
  · rw [hload]
    exact (Journal.recordAll_outlets _ _ _ _).trans houtlets
  · exact o.level_eq_iff _ _ _
  · exact o.finish_eq_iff _ _ _
  · rw [o.format_wanted]
    exact Template.ofScalar_eq_default_iff

/-- A settings text that asks for all details. -/
def talkative : String := "logging\x7blevel debug;\x7d"

/-- What a session finds that asks for all details. -/
def talk : Session := { paper := { files := ⟨[(["c.conf"], .file (Utf8.encode talkative))], []⟩ } }

theorem loadFile_talk : (Loader.fresh.loadFile talk.paper.files (.ofString "c.conf")).1 =
    .ok { logging := { level := "debug" } } := by
  have hdecode : Utf8.decode (Utf8.encode talkative) = .ok talkative.toList :=
    Utf8.decode_eq_ok_iff.mpr rfl
  have hstatus : talk.paper.files.status (Files.Path.ofString "c.conf").toString =
      .ok (["c.conf"], .file (Utf8.encode talkative)) := rfl
  have hread : (Loader.fresh.loadFile talk.paper.files (.ofString "c.conf")).1 =
      (Loader.fresh.loadText talkative "c.conf").1 := by
    unfold Loader.loadFile
    rw [Loader.readFile_eq, hstatus]
    dsimp only
    rw [hdecode]
    rfl
  have hloaded : (Loader.fresh.loadText talkative "c.conf").1.toOption =
      some { logging := { level := "debug" } } := by decide +kernel
  rw [hread]
  generalize (Loader.fresh.loadText talkative "c.conf").1 = loaded at hloaded ⊢
  rcases loaded with e | found
  · contradiction
  · exact congrArg Except.ok (Option.some.inj hloaded)

/-- Without a flag the console does not have the level that the settings ask for. -/
theorem load_log_talkative :
    ∃ console, (talk.load solitude "c.conf" (some ({} : Options).setup)).2.journal.outlets =
      [.console console] ∧ console.level ≠ .debug := by
  let settings : Settings := { logging := { level := "debug" } }
  have hload : (talk.load solitude "c.conf" (some ({} : Options).setup)).1 = .ok settings := by
    obtain ⟨journal, hset⟩ := talk.setUp_console solitude (o := {}) rfl
    have hnone : Log.logFile? settings.logging = none := rfl
    have hsame : ({} : Options).setup.withFileOf settings.logging = ({} : Options).setup :=
      Setup.withFileOf_of_none hnone
    rw [← hsame] at hset
    refine load_of (Prod.ext loadFile_talk rfl) hset fun fault => ?_
    obtain ⟨port, hport⟩ : ∃ port, Numeral.textOf 1883 = .ok port := by
      unfold Numeral.textOf
      rw [if_neg (by decide +kernel)]
      exact ⟨_, rfl⟩
    simp [loadReport, hport, settings, Config.Scalar.display, bind, Except.bind, pure, Except.pure]
  obtain ⟨console, houtlets, hlevel, -⟩ := load_log hload
  have hword : Severity.ofWord "debug" = .debug := by decide
  have hasked : (Journal.console (({} : Options).wanted settings.logging) console.template
      solitude.isTerminal).level = .debug := by
    unfold Journal.console
    rw [show (({} : Options).wanted settings.logging).consoleLevel = "debug" from rfl, hword]
  refine ⟨console, houtlets, fun hdebug => ?_⟩
  rcases hlevel.mp (hdebug.trans hasked.symm) with hflag | hwarning
  · exact hflag rfl
  · exact absurd (hword.symm.trans hwarning) (by decide)

end Session

end SupplyGauge.CommandLine
