import SupplyGauge.Proofs.CommandLine.LogChoice
import SupplyGauge.Proofs.Daemon.Limit

/-! # How the program ends

Failures while the program collects or runs become status one and an entry in the log. So
do all failures of loading settings and of setting up the log that they ask for. Failures
that come before go to the caller: the log file that the options name cannot be opened,
the path of the settings cannot be looked up, or a check comes upon something that is no
error of the configuration.
-/

namespace SupplyGauge.Files.Tree

/-- Whether something is there cannot be told exactly if a name is too long. -/
theorem pathExists_error_iff {t : Tree} {path : Path} : (∃ f, t.pathExists path = .error f) ↔
    t.status path.toString = .error (.system .nameTooLong path.toString) := by
  unfold pathExists test
  rcases hstatus : t.status path.toString with f | ⟨place, node⟩
  · rcases status_error_cases hstatus with habsent | rfl
    · have hne : f ≠ .system .nameTooLong path.toString := by
        rintro rfl
        simp [Failure.isAbsence] at habsent
      simp [habsent, hne]
    · simp [Failure.isAbsence]
  · simp

end SupplyGauge.Files.Tree

namespace SupplyGauge.CommandLine

open Config (Loader Settings EscapingFile)
open Files (Path Tree)
open Log (Journal Setup)

/-- The tree after the log file that options name has been opened, if they name one. -/
def Options.logged (o : Options) (files : Tree) : Except Files.Failure Tree :=
  match given o.logFile with
  | some text => Log.openLog files text
  | none => .ok files

/-- The settings file that options name, or the default one. -/
def Options.configPath (o : Options) : Path :=
  Path.ofString ((given o.config).getD defaultConfigPath)

/-- Whether settings cannot be printed: the host, the port, the topic prefix or the log file is a
number with too many digits. -/
def Unprintable (settings : Settings) : Prop :=
  ∃ fault, settings.mqtt.host.display = .error fault ∨
    Numeral.textOf settings.mqtt.port = .error fault ∨
    settings.mqtt.topicPrefix.display = .error fault ∨
    ∃ path, Log.logFile? settings.logging = some path ∧ path.display = .error fault

/-- Whether a check of a settings file comes upon something that is no error of the
configuration. -/
def Uncheckable (files : Tree) (path : String) : Prop :=
  EscapingFile files (.ofString path) ∨
    ∃ settings, (Loader.fresh.loadFile files (.ofString path)).1 = .ok settings ∧
      Unprintable settings

/-- Whether a run finds its settings file, in the tree that is left by the log of the options. -/
def Options.Finds (o : Options) (files files' : Tree) : Prop :=
  o.logged files = .ok files' ∧ files'.pathExists o.configPath = .ok true

/-- What breaks a run before anything catches it: the log file that the options name, the path of
the settings, or a check. -/
inductive Options.Breaks (o : Options) (files : Tree) : Prop
  | log {f : Files.Failure} (hlog : o.logged files = .error f)
  | lookUp {files' : Tree} (hlog : o.logged files = .ok files')
      (hlong : files'.status o.configPath.toString =
        .error (.system .nameTooLong o.configPath.toString))
  | check {files' : Tree} (hfinds : o.Finds files files') (hvalidate : o.validate = true)
      (hcheck : Uncheckable files' o.configPath.toString)

theorem Options.breaks_iff {o : Options} {files files' : Tree}
    (hlog : o.logged files = .ok files') :
    o.Breaks files ↔ (∃ f, files'.pathExists o.configPath = .error f) ∨
      o.validate = true ∧ files'.pathExists o.configPath = .ok true ∧
        Uncheckable files' o.configPath.toString := by
  rw [Files.Tree.pathExists_error_iff]
  constructor
  · rintro (hfailed | ⟨hlog', hlong⟩ | ⟨⟨hlog', hexists⟩, hvalidate, hcheck⟩)
    · rw [hlog] at hfailed
      contradiction
    · obtain rfl := Except.ok.inj (hlog.symm.trans hlog')
      exact .inl hlong
    · obtain rfl := Except.ok.inj (hlog.symm.trans hlog')
      exact .inr ⟨hvalidate, hexists, hcheck⟩
  · rintro (hlong | ⟨hvalidate, hexists, hcheck⟩)
    · exact .lookUp hlog hlong
    · exact .check ⟨hlog, hexists⟩ hvalidate hcheck

/-- Whether the run of a daemon with some settings is cut short, whatever it writes on. -/
def Surroundings.CutsShort (w : Surroundings) (settings : Settings) : Prop :=
  ∃ journal paper d, Daemon.State.make settings w.digits journal w.stamp paper true
    { script := w.script } = .ok d ∧ (d.run w.steps w.limit).Unended

/-- What a run does once it has settings. -/
def Options.work (o : Options) (w : Surroundings) (s : Session) (settings : Settings) :
    Except Failure Nat × Session :=
  if o.once then s.collectOnce w settings else s.serve w settings

namespace Session

/-- The log of the options fails only for its file. -/
theorem setUp_options (s : Session) (w : Surroundings) (o : Options) :
    match o.logged s.paper.files with
    | .error f => (s.setUp w o.setup).1 = .error (.logging (.file f))
    | .ok files => ∃ s', s.setUp w o.setup = (.ok (), s') ∧ s'.paper.files = files := by
  unfold Options.logged
  rcases hgiven : given o.logFile with _ | text
  · obtain ⟨journal, hset⟩ := s.setUp_console w hgiven
    exact ⟨_, hset, rfl⟩
  · have htemplate : Log.Template.ofScalar o.setup.format = .ok ⟨Config.defaultLogFormat⟩ := by
      rw [o.format_setup, Log.Template.ofScalar_defaultLogFormat]
    have hset := s.journal.setUp_of_text htemplate (by rw [o.fileEnabled_setup, hgiven]; rfl)
      (o.filePath_setup hgiven) w.isTerminal s.paper.files
    unfold setUp
    dsimp only
    generalize Log.openLog s.paper.files text = opened at hset ⊢
    rcases opened with f | files
    · exact congrArg (Except.mapError Failure.logging) hset
    · obtain ⟨journal, hset⟩ := hset
      rw [hset]
      exact ⟨_, rfl, rfl⟩

/-! ## Checks -/

/-- The report of a check has a fault exactly if the settings cannot be printed. -/
theorem checkReport_error_iff (settings : Settings) (warnings : List Config.Warning) :
    (∃ fault, .error fault ∈ checkReport settings warnings) ↔ Unprintable settings := by
  unfold checkReport Unprintable
  rcases hhost : settings.mqtt.host.display with fault | host
  · simp [hhost, bind, Except.bind]
  rcases hport : Numeral.textOf settings.mqtt.port with fault | port
  · simp [hhost, hport, bind, Except.bind]
  rcases hprefix : settings.mqtt.topicPrefix.display with fault | topicPrefix
  · simp [hhost, hport, hprefix, bind, Except.bind]
  rcases hfile : Log.logFile? settings.logging with _ | path
  · simp [hhost, hport, hprefix, bind, Except.bind, pure, Except.pure]
  · rcases hpath : path.display with fault | text <;>
      simp [hhost, hport, hprefix, hpath, bind, Except.bind, pure, Except.pure, Except.map]

theorem check_ends (s : Session) (path : String) :
    (s.check path).1 = .status 0 ∨ (s.check path).1 = .status 1 ∨
      ∃ f ≠ .cancelled, (s.check path).1 = .failed f := by
  unfold check
  split
  next =>
    split
    · exact .inr (.inl rfl)
    · exact .inr (.inr ⟨_, by simp, rfl⟩)
  next =>
    dsimp only
    split
    next => exact .inl rfl
    next => exact .inr (.inr ⟨_, by simp, rfl⟩)

/-- A check fails for its file, or for what it shows of the settings in it. -/
theorem check_failed_iff (s : Session) (path : String) :
    (∃ f, (s.check path).1 = .failed f) ↔ Uncheckable s.paper.files path := by
  unfold check Uncheckable
  rw [← Loader.loadFile_escapes_iff (l := .fresh)]
  rcases Loader.fresh.loadFile s.paper.files (.ofString path) with ⟨e | settings, loader⟩
  · rcases hkind : e.isConfiguration with _ | _ <;> simp [Config.Escapes, hkind]
  · have hreport := untilFault_error_iff (checkReport settings (loader.validate settings))
    rw [checkReport_error_iff] at hreport
    dsimp only
    generalize untilFault (checkReport settings (loader.validate settings)) = read at hreport ⊢
    rcases read with ⟨lines, fault | _⟩ <;> simpa [Config.Escapes] using hreport

/-! ## Runs with settings -/

/-- Whatever is not an end from outside becomes a status. -/
theorem conclude_failure (s : Session) (w : Surroundings) {f : Failure} (hf : f ≠ .cancelled) :
    (s.conclude w (.error f)).1 = .status (if f = .interrupted then 0 else 1) := by
  cases f with
  | cancelled => exact absurd rfl hf
  | load e =>
      unfold conclude
      dsimp only
      split <;> rfl
  | _ => rfl

theorem setUp_failure {s : Session} {w : Surroundings} {setup : Setup} {f : Failure}
    (h : (s.setUp w setup).1 = .error f) : ∃ e, f = .logging e := by
  unfold setUp at h
  generalize s.journal.setUp setup w.isTerminal s.paper.files = done at h
  rcases done with ⟨e | _, journal, files⟩
  · exact ⟨e, (Except.error.inj h).symm⟩
  · contradiction

/-- Settings that cannot be loaded are a failure of the file, of their log, or of what is logged
about them. -/
theorem load_failure {s : Session} {w : Surroundings} {path : String} {chosen : Setup} {f : Failure}
    (h : (s.load w path (some chosen)).1 = .error f) : f ≠ .interrupted ∧ f ≠ .cancelled := by
  unfold load at h
  split at h
  next e _ _ =>
    obtain rfl := Except.error.inj h
    simp
  next settings loader _ =>
    dsimp only at h
    split at h
    next f' _ hset =>
      obtain rfl := Except.error.inj h
      obtain ⟨e, rfl⟩ := setUp_failure (congrArg Prod.fst hset)
      simp
    next =>
      generalize untilFault (loadReport path settings (loader.validate settings)) = read at h
      rcases read with ⟨entries, fault | _⟩
      · obtain rfl := Except.error.inj h
        simp
      · contradiction

theorem collectOnce_ends (s : Session) (w : Surroundings) (settings : Settings) :
    (∃ n ≤ 1, (s.collectOnce w settings).1 = .ok n) ∨
      ∃ e, (s.collectOnce w settings).1 = .error (.setting e) := by
  unfold collectOnce
  split
  next => exact .inr ⟨_, rfl⟩
  next =>
    dsimp only
    split
    next => exact .inl ⟨1, Nat.le_refl 1, rfl⟩
    next => exact .inl ⟨0, Nat.zero_le 1, rfl⟩

/-- A run of the daemon fails like a cancelled one only if it has been cut short. -/
theorem serve_ends (s : Session) (w : Surroundings) (settings : Settings) :
    (s.serve w settings).1 = .ok 0 ∨ (∃ f ≠ .cancelled, (s.serve w settings).1 = .error f) ∨
      (s.serve w settings).1 = .error .cancelled ∧ w.CutsShort settings := by
  unfold serve
  dsimp only
  split
  next => exact .inr (.inl ⟨_, by simp, rfl⟩)
  next d hmake =>
    split
    next => exact .inl rfl
    next => exact .inr (.inl ⟨_, by simp, rfl⟩)
    next => exact .inr (.inl ⟨_, by simp, rfl⟩)
    next hending =>
      exact .inr (.inr ⟨rfl, _, _, d, hmake, Daemon.State.run_cancelled hmake hending⟩)

/-- What a run does with its settings ends with status zero or one, fails, or is cut short. -/
theorem work_ends (s : Session) (w : Surroundings) (o : Options) (settings : Settings) :
    (∃ n ≤ 1, (o.work w s settings).1 = .ok n) ∨
      (∃ f ≠ .cancelled, (o.work w s settings).1 = .error f) ∨
      (o.work w s settings).1 = .error .cancelled ∧ o.once = false ∧ w.CutsShort settings := by
  unfold Options.work
  split
  next =>
    rcases s.collectOnce_ends w settings with hended | ⟨e, hfailed⟩
    · exact .inl hended
    · exact .inr (.inl ⟨_, by simp, hfailed⟩)
  next honce =>
    rcases s.serve_ends w settings with hended | hfailed | ⟨hfailed, hcut⟩
    · exact .inl ⟨0, Nat.zero_le 1, hended⟩
    · exact .inr (.inl hfailed)
    · exact .inr (.inr ⟨hfailed, by simpa using honce, hcut⟩)

/-- A run that is to load settings ends with status one if it fails to, and otherwise as its work
with them does. -/
theorem withSettings_ends (s : Session) (w : Surroundings) (path : String) (setup : Setup)
    (o : Options) :
    (∃ n ≤ 1, (s.withSettings w path setup (o.work w)).1 = .status n) ∨
      (s.withSettings w path setup (o.work w)).1 = .failed .cancelled ∧ o.once = false ∧
        ∃ settings, w.CutsShort settings := by
  unfold withSettings
  have hfailure (f : Failure) (h : (s.load w path (some setup)).1 = .error f) := load_failure h
  generalize s.load w path (some setup) = loaded at hfailure ⊢
  rcases loaded with ⟨f | settings, s'⟩
  · exact .inl ⟨_, by split <;> simp, conclude_failure s' w (hfailure f rfl).2⟩
  · have hwork := s'.work_ends w o settings
    dsimp only
    generalize o.work w s' settings = worked at hwork ⊢
    obtain ⟨r, s''⟩ := worked
    rcases hwork with ⟨n, hn, rfl⟩ | ⟨f, hf, rfl⟩ | ⟨rfl, honce, hcut⟩
    · exact .inl ⟨n, hn, rfl⟩
    · exact .inl ⟨_, by split <;> simp, conclude_failure s'' w hf⟩
    · exact .inr ⟨rfl, honce, settings, hcut⟩

/-- Settings that cannot be loaded give status one. -/
theorem withSettings_unloaded {s : Session} {w : Surroundings} {path : String} {setup : Setup}
    (next : Session → Settings → Except Failure Nat × Session) {f : Failure}
    (h : (s.load w path (some setup)).1 = .error f) :
    (s.withSettings w path setup next).1 = .status 1 := by
  unfold withSettings
  have hfailure := load_failure h
  generalize s.load w path (some setup) = loaded at h ⊢
  obtain ⟨r, s'⟩ := loaded
  obtain rfl : r = .error f := h
  exact (conclude_failure s' w hfailure.2).trans (by rw [if_neg hfailure.1])

end Session

/-! ## Runs -/

/-- Whether a failure goes to the caller. An end from outside is none. -/
def Exit.Propagates (exit : Exit) : Prop := ∃ f ≠ Failure.cancelled, exit = .failed f

/-- How a run ends: with status zero or one, unless it is cut short from outside or is one of those
that break. Settings that are missing, or that cannot be loaded where this is caught, and a log of
theirs that cannot be written give status one. -/
structure Options.Outcome (o : Options) (w : Surroundings) (files : Tree) (exit : Exit) : Prop where
  ends : (∃ n ≤ 1, exit = .status n) ∨ exit = .failed .cancelled ∨ exit.Propagates
  propagates : exit.Propagates ↔ o.Breaks files
  cut : exit = .failed .cancelled → o.validate = false ∧ o.once = false ∧
    ∃ settings, w.CutsShort settings
  missing {files' : Tree} (hlog : o.logged files = .ok files')
    (habsent : files'.pathExists o.configPath = .ok false) : exit = .status 1
  unloaded {files' : Tree} {e : Config.LoadError} (hfinds : o.Finds files files')
    (hload : (Loader.fresh.loadFile files' (.ofString o.configPath.toString)).1 = .error e)
    (hcaught : o.validate = false ∨ e.isConfiguration = true) : exit = .status 1
  unwritten {files' : Tree} {settings : Settings} {text : String} {f : Files.Failure}
    (hfinds : o.Finds files files') (hvalidate : o.validate = false)
    (hload : (Loader.fresh.loadFile files' (.ofString o.configPath.toString)).1 = .ok settings)
    (hgiven : given o.logFile = none) (hfile : Log.logFile? settings.logging = some (.text text))
    (hopen : Log.openLog files' text = .error f) : exit = .status 1

variable {o : Options} {w : Surroundings} {files : Tree}

theorem run_unlogged {s : Session} {f : Files.Failure} (hlog : o.logged s.paper.files = .error f) :
    (o.run w s).1 = .failed (.logging (.file f)) := by
  have hset := s.setUp_options w o
  rw [hlog] at hset
  dsimp only at hset
  unfold Options.run
  generalize s.setUp w o.setup = done at hset ⊢
  rcases done with ⟨r, s'⟩
  obtain rfl : r = .error (.logging (.file f)) := hset
  rfl

theorem run_logged {s : Session} {files' : Tree} (hsource : o.once = false ∨ o.config ≠ none)
    (hlog : o.logged s.paper.files = .ok files') : ∃ s' : Session, s'.paper.files = files' ∧
      (o.run w s).1 =
        match files'.pathExists o.configPath with
        | .error f => .failed (.files f)
        | .ok false => .status 1
        | .ok true =>
          if o.validate then (s'.check o.configPath.toString).1
          else (s'.withSettings w o.configPath.toString o.setup (o.work w)).1 := by
  have hset := s.setUp_options w o
  rw [hlog] at hset
  dsimp only at hset
  obtain ⟨s', hset, rfl⟩ := hset
  refine ⟨s', rfl, ?_⟩
  have hnamed : (o.once && o.config.isNone) = false := by
    rcases hsource with honce | hconfig
    · rw [honce, Bool.false_and]
    · rw [Option.isNone_eq_false_iff.mpr (Option.isSome_iff_ne_none.mpr hconfig), Bool.and_false]
  unfold Options.run Options.configPath
  rw [hset]
  dsimp only
  rw [hnamed, if_neg Bool.false_ne_true]
  rcases s'.paper.files.pathExists _ with f | _ | _
  · rfl
  · rfl
  · dsimp only
    split <;> rfl

/-- A run that does not break ends with status zero or one, unless it is cut short. -/
theorem run_cases (hsource : o.once = false ∨ o.config ≠ none) (w : Surroundings) (s : Session) :
    o.Breaks s.paper.files ∧ (o.run w s).1.Propagates ∨
      ¬ o.Breaks s.paper.files ∧ ((∃ n ≤ 1, (o.run w s).1 = .status n) ∨
        (o.run w s).1 = .failed .cancelled ∧ o.validate = false ∧ o.once = false ∧
          ∃ settings, w.CutsShort settings) := by
  rcases hlog : o.logged s.paper.files with f | files'
  · exact .inl ⟨.log hlog, _, by simp, run_unlogged hlog⟩
  obtain ⟨s', rfl, hrun⟩ := run_logged (w := w) hsource hlog
  rw [Options.breaks_iff hlog, hrun]
  rcases s'.paper.files.pathExists o.configPath with f | _ | _
  · exact .inl ⟨.inl ⟨f, rfl⟩, _, by simp, rfl⟩
  · exact .inr ⟨by simp, .inl ⟨1, Nat.le_refl 1, rfl⟩⟩
  rcases hvalidate : o.validate with _ | _
  · -- everything that fails from here on is caught
    refine .inr ⟨by simp, ?_⟩
    rcases s'.withSettings_ends w o.configPath.toString o.setup o with hended | ⟨hfailed, hcut⟩
    · exact .inl hended
    · exact .inr ⟨hfailed, rfl, hcut⟩
  · have hfailed := s'.check_failed_iff o.configPath.toString
    simp only [reduceCtorEq, exists_false, false_or, true_and, if_true, ← hfailed]
    rcases s'.check_ends o.configPath.toString with hended | hended | ⟨f, hf, hended⟩
    · exact .inr ⟨by simp [hended], .inl ⟨0, Nat.zero_le 1, hended⟩⟩
    · exact .inr ⟨by simp [hended], .inl ⟨1, Nat.le_refl 1, hended⟩⟩
    · exact .inl ⟨⟨f, hended⟩, f, hf, hended⟩

/-- Settings that cannot be loaded give status one, where the failure is caught. -/
theorem run_unloaded {s : Session} {files' : Tree} {e : Config.LoadError}
    (hsource : o.once = false ∨ o.config ≠ none) (hfinds : o.Finds s.paper.files files')
    (hload : (Loader.fresh.loadFile files' (.ofString o.configPath.toString)).1 = .error e)
    (hcaught : o.validate = false ∨ e.isConfiguration = true) : (o.run w s).1 = .status 1 := by
  obtain ⟨s', rfl, hrun⟩ := run_logged (w := w) hsource hfinds.1
  rw [hrun, hfinds.2]
  dsimp only
  generalize hloaded : Loader.fresh.loadFile s'.paper.files _ = loaded at hload
  obtain ⟨r, loader⟩ := loaded
  obtain rfl : r = .error e := hload
  split
  next hvalidate =>
    have hkind : e.isConfiguration = true := hcaught.resolve_left (by simp [hvalidate])
    unfold Session.check
    rw [hloaded]
    dsimp only
    rw [if_pos hkind]
  next =>
    refine Session.withSettings_unloaded (f := .load e) _ ?_
    unfold Session.load
    rw [hloaded]

/-- A log that the settings ask for and that cannot be written gives status one. -/
theorem run_unwritten {s : Session} {files' : Tree} {settings : Settings} {text : String}
    {f : Files.Failure} (hsource : o.once = false ∨ o.config ≠ none)
    (hfinds : o.Finds s.paper.files files') (hvalidate : o.validate = false)
    (hload : (Loader.fresh.loadFile files' (.ofString o.configPath.toString)).1 = .ok settings)
    (hgiven : given o.logFile = none) (hfile : Log.logFile? settings.logging = some (.text text))
    (hopen : Log.openLog files' text = .error f) : (o.run w s).1 = .status 1 := by
  obtain ⟨s', rfl, hrun⟩ := run_logged (w := w) hsource hfinds.1
  rw [hrun, hfinds.2]
  dsimp only
  rw [hvalidate, if_neg Bool.false_ne_true]
  generalize hloaded : Loader.fresh.loadFile s'.paper.files _ = loaded at hload
  obtain ⟨r, loader⟩ := loaded
  obtain rfl : r = .ok settings := hload
  have hfree : o.setup.fileEnabled = false := by
    rw [o.fileEnabled_setup, hgiven]
    rfl
  have htaken := Setup.withFileOf_of_free hfree hfile
  have htemplate : Log.Template.ofScalar (o.setup.withFileOf settings.logging).format =
      .ok ⟨Config.defaultLogFormat⟩ := by
    rw [o.setup.format_withFileOf, o.format_setup, Log.Template.ofScalar_defaultLogFormat]
  have hset := s'.journal.setUp_of_text htemplate (by rw [htaken]) (by rw [htaken]) w.isTerminal
    s'.paper.files
  rw [hopen] at hset
  refine Session.withSettings_unloaded (f := .logging (.file f)) _ ?_
  unfold Session.load
  rw [hloaded]
  dsimp only
  have hfailed : (s'.setUp w (o.setup.withFileOf settings.logging)).1 =
      .error (.logging (.file f)) := congrArg (Except.mapError Failure.logging) hset
  generalize s'.setUp w (o.setup.withFileOf settings.logging) = done at hfailed ⊢
  obtain ⟨r, s''⟩ := done
  obtain rfl : r = .error (.logging (.file f)) := hfailed
  rfl

/-- How a run ends, unless it is to collect once without settings. -/
theorem run_exit {words : List String} (hwords : Request.ofWords words = .ok (.run o))
    (hsource : o.once = false ∨ o.config ≠ none) (w : Surroundings) (files : Tree) :
    o.Outcome w files (run words w files).1 := by
  have hrun : (run words w files).1 = (o.run w { paper := { files } }).1 := by
    unfold run
    rw [hwords]
  rw [hrun]
  have hcases := run_cases hsource w { paper := { files } }
  refine ⟨?_, ?_, ?_, ?_, run_unloaded (s := { paper := { files } }) hsource,
    run_unwritten (s := { paper := { files } }) hsource⟩
  · rcases hcases with ⟨-, hfailed⟩ | ⟨-, hended | ⟨hfailed, -⟩⟩
    · exact .inr (.inr hfailed)
    · exact .inl hended
    · exact .inr (.inl hfailed)
  · rcases hcases with ⟨hbreaks, hfailed⟩ | ⟨hsound, ⟨n, -, hended⟩ | ⟨hfailed, -⟩⟩
    · exact ⟨fun _ => hbreaks, fun _ => hfailed⟩
    · simp [Exit.Propagates, hended, hsound]
    · simp [Exit.Propagates, hfailed, hsound]
  · intro hcancelled
    rcases hcases with ⟨-, f, hf, hfailed⟩ | ⟨-, ⟨n, -, hended⟩ | ⟨-, hcut⟩⟩
    · exact absurd (Exit.failed.inj (hfailed.symm.trans hcancelled)) hf
    · rw [hended] at hcancelled
      contradiction
    · exact hcut
  · intro files' hlog habsent
    obtain ⟨s', rfl, hended⟩ := run_logged (w := w) (s := { paper := { files } }) hsource hlog
    rw [hended, habsent]

/-- A settings file that is not UTF-8. -/
def garbled : Tree := ⟨[(["c.conf"], .file [0xFF])], []⟩

/-- The same settings break a check and give status one where they are to be used. -/
theorem run_exit_garbled :
    (run ["--validate", "c.conf"] solitude garbled).1.Propagates ∧
      (run ["--once", "c.conf"] solitude garbled).1 = .status 1 := by
  have hdecode : Utf8.decode [0xFF] = .error ⟨.badStart, 0, 1, 0xFF⟩ := by
    rw [Utf8.decode, Utf8.decodeFrom]
    rfl
  have hescapes : EscapingFile garbled (.ofString "c.conf") :=
    .inr ⟨[0xFF], rfl, .inl (Utf8.decode_eq_error_iff.mp ⟨_, hdecode⟩)⟩
  obtain ⟨e, hload, -⟩ := (Loader.loadFile_escapes_iff (l := .fresh)).mpr hescapes
  constructor
  · have hwords : Request.ofWords ["--validate", "c.conf"] =
        .ok (.run { config := some "c.conf", validate := true }) := by decide +kernel
    exact (run_exit hwords (.inl rfl) solitude garbled).propagates.mpr
      (.check ⟨rfl, rfl⟩ rfl (.inl hescapes))
  · have hwords : Request.ofWords ["--once", "c.conf"] =
        .ok (.run { config := some "c.conf", once := true }) := by decide +kernel
    exact (run_exit hwords (.inr (by decide)) solitude garbled).unloaded ⟨rfl, rfl⟩ hload
      (.inl rfl)

end SupplyGauge.CommandLine
