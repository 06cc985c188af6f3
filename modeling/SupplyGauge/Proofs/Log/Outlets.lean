import SupplyGauge.Log.Journal

/-! # Logs in use

What the sinks of a journal have been set up with stays the same while they write: the console's
level, layout and finish, and the path, level, layout and limits of the file. A setup has a
console and, where it asks for one, a file.
-/

namespace SupplyGauge.Files.Tree

/-! ## The working directory -/

theorem makeDirectory_home {t t' : Tree} {path : Path} (h : t.makeDirectory path = .ok t') :
    t'.home = t.home := by
  unfold makeDirectory at h
  dsimp only at h
  split at h
  next => contradiction
  next =>
    split at h <;> first | contradiction | skip
    rw [← Except.ok.inj h]

theorem ensureOne_home {t t' : Tree} {path : Path} {absent : Failure → Except Failure Tree}
    (habsent : ∀ f, absent f = .ok t' → t'.home = t.home)
    (h : t.ensureOne path absent = .ok t') : t'.home = t.home := by
  unfold ensureOne at h
  split at h
  next made hmade => exact Except.ok.inj h ▸ makeDirectory_home hmade
  next => contradiction
  next => exact habsent _ h
  next =>
    generalize t.isDirectory path = isThere at h
    rcases isThere with f | _ | _
    · contradiction
    · contradiction
    · exact congrArg Tree.home (Except.ok.inj h).symm

theorem ensureDirectory_home {t t' : Tree} {path : Path} (h : t.ensureDirectory path = .ok t') :
    t'.home = t.home := by
  induction hlength : path.names.length generalizing path t' with
  | zero =>
      rw [ensureDirectory] at h
      refine ensureOne_home (fun f hfailed => ?_) h
      rw [dif_pos (List.length_eq_zero_iff.mp hlength)] at hfailed
      contradiction
  | succ length ih =>
      rw [ensureDirectory] at h
      refine ensureOne_home (fun f hmade => ?_) h
      rw [dif_neg (List.ne_nil_of_length_eq_add_one hlength)] at hmade
      rcases hparent : t.ensureDirectory path.parent with f | made
      · rw [hparent] at hmade
        contradiction
      · rw [hparent] at hmade
        have hhome : made.home = t.home := ih hparent (by simp [Path.parent, hlength])
        exact (ensureOne_home (fun _ h => by contradiction) hmade).trans hhome

end SupplyGauge.Files.Tree

namespace SupplyGauge.Log

open Files (Path Tree)

/-! ## Outlets -/

/-- What a sink has been set up with. -/
inductive Outlet where
  | console (c : Console)
  | file (path : Path) (level : Severity) (template : Template) (limit keep : Int)

def LogFile.outlet (f : LogFile) : Outlet := .file f.path f.level f.template f.limit f.keep

def Sink.outlet : Sink → Outlet
  | .console c => .console c
  | .file f => f.outlet

def Journal.outlets (j : Journal) : List Outlet := j.sinks.map Sink.outlet

namespace LogFile

variable {f f' : LogFile} {files files' : Tree}

theorem open_outlet (h : f.open_ files = .ok (f', files')) : f'.outlet = f.outlet := by
  unfold open_ at h
  cases hopen : files.openAppend f.path with
  | error e =>
      rw [hopen] at h
      contradiction
  | ok opened =>
      rw [hopen] at h
      obtain ⟨rfl, -⟩ := Prod.mk.inj (Except.ok.inj h)
      rfl

theorem opened_outlet (h : f.opened files = .ok (f', files')) : f'.outlet = f.outlet := by
  unfold opened at h
  split at h
  next => exact open_outlet h
  next =>
    obtain ⟨rfl, -⟩ := Prod.mk.inj (Except.ok.inj h)
    rfl

theorem flush_outlet (f : LogFile) (files : Tree) : (f.flush files).1.outlet = f.outlet := rfl

theorem renew_outlet (f : LogFile) (files : Tree) : (f.renew files).2.1.outlet = f.outlet := by
  unfold renew
  dsimp only
  split
  next => rfl
  next =>
    split
    next => rfl
    next hopen => exact open_outlet hopen

theorem append_outlet (f : LogFile) (line : String) (files : Tree) :
    (f.append line files).1.outlet = f.outlet := by
  unfold append
  dsimp only
  split
  next => rfl
  next opened files hopened =>
    have hsame := opened_outlet hopened
    have hrenewed := opened.renew_outlet files
    split
    · split <;> rename_i hrenew <;> rw [hrenew] at hrenewed <;> exact hrenewed.trans hsame
    · exact hsame

end LogFile

theorem Sink.write_outlet (s : Sink) (stamp : Stamp) (e : Entry) (p : Paper) :
    (s.write stamp e p).1.outlet = s.outlet := by
  unfold write
  split
  next => split <;> first | rfl | (split <;> rfl)
  next f =>
    split
    · split
      next line _ => exact f.append_outlet line p.files
      next => rfl
    · rfl

theorem Sink.flush_outlet (s : Sink) (files : Tree) : (s.flush files).1.outlet = s.outlet := by
  cases s <;> rfl

/-- What leaves each sink's outlet as it is leaves those of all sinks. -/
theorem throughSinks_outlets {σ : Type} {f : Sink → σ → Sink × σ}
    (hf : ∀ s x, (f s x).1.outlet = s.outlet) (sinks : List Sink) (x : σ) :
    (throughSinks f sinks x).1.map Sink.outlet = sinks.map Sink.outlet := by
  induction sinks generalizing x with
  | nil => rfl
  | cons s rest ih => exact List.cons_eq_cons.mpr ⟨hf s x, ih _⟩

namespace Journal

theorem record_outlets (j : Journal) (stamp : Stamp) (e : Entry) (p : Paper) :
    (j.record stamp e p).1.outlets = j.outlets := by
  unfold record
  dsimp only
  split
  · split
    · exact throughSinks_outlets (fun s p => s.write_outlet stamp _ p) j.sinks p
    · rfl
  · rfl

theorem recordAll_outlets (j : Journal) (stamp : Stamp) (entries : List Entry) (p : Paper) :
    (j.recordAll stamp entries p).1.outlets = j.outlets := by
  have hwritten : (entries.foldl (fun x e => x.1.record stamp e x.2) (j, p)).1.outlets =
      j.outlets := by
    induction entries generalizing j p with
    | nil => rfl
    | cons e entries ih => exact (ih _ _).trans (j.record_outlets stamp e p)
  exact (throughSinks_outlets Sink.flush_outlet _ _).trans hwritten

theorem setLevels_sinks (j : Journal) (s : Setup) : (j.setLevels s).sinks = j.sinks := by
  have hset {α : Type} (f : Journal → α → Journal) (hf : ∀ j a, (f j a).sinks = j.sinks)
      (l : List α) (j : Journal) : (l.foldl f j).sinks = j.sinks := by
    induction l generalizing j with
    | nil => rfl
    | cons a l ih => exact (ih _).trans (hf j a)
  unfold setLevels
  rw [hset, hset]
  · exact fun _ _ => rfl
  · exact fun _ _ => rfl

end Journal

/-! ## Setting up -/

/-- The file that a setup asks for, if any. -/
def Setup.fileOutlets (s : Setup) (template : Template) (files : Tree) : List Outlet :=
  match s.fileEnabled, s.filePath with
  | true, .text text => [.file (Journal.absolute files (.ofString text)) (.ofWord s.fileLevel)
      template s.fileLimit s.fileKeep]
  | _, _ => []

namespace Journal

theorem absolute_congr {files files' : Tree} (h : files'.home = files.home) (path : Path) :
    absolute files' path = absolute files path := by
  unfold absolute
  rw [h]

theorem openFile_outlet {s : Setup} {template : Template} {files files' : Tree} {f : LogFile}
    (hfile : s.fileEnabled = true) (h : openFile s template files = (.ok f, files')) :
    s.fileOutlets template files = [f.outlet] := by
  unfold openFile at h
  unfold Setup.fileOutlets
  rw [hfile]
  split at h
  next text htext =>
    rw [htext]
    dsimp only at h ⊢
    split at h
    next => exact absurd (congrArg Prod.fst h) (by simp)
    next made hmade =>
      split at h
      next => exact absurd (congrArg Prod.fst h) (by simp)
      next opened _ hopen =>
        obtain rfl : opened = f := Except.ok.inj (congrArg Prod.fst h)
        rw [LogFile.open_outlet hopen]
        simp only [LogFile.outlet, absolute_congr (Tree.ensureDirectory_home hmade)]
  next => exact absurd (congrArg Prod.fst h) (by simp)

/-- A journal that has been set up has a console, and the file that the setup asks for. -/
theorem setUp_outlets {j j' : Journal} {s : Setup} {isTerminal : Bool} {files files' : Tree}
    (h : j.setUp s isTerminal files = (.ok (), j', files')) :
    ∃ template, Template.ofScalar s.format = .ok template ∧
      j'.outlets = .console (console s template isTerminal) :: s.fileOutlets template files := by
  unfold setUp at h
  dsimp only at h
  split at h
  next => exact absurd (congrArg Prod.fst h) (by simp)
  next template htemplate =>
    refine ⟨template, htemplate, ?_⟩
    split at h
    next hfile =>
      split at h
      next => exact absurd (congrArg Prod.fst h) (by simp)
      next f files hopen =>
        obtain rfl := congrArg (·.2.1) h
        rw [openFile_outlet hfile hopen, outlets, setLevels_sinks]
        rfl
    next hfile =>
      obtain rfl := congrArg (·.2.1) h
      have hnone : s.fileOutlets template files = [] := by
        unfold Setup.fileOutlets
        rw [Bool.eq_false_iff.mpr hfile]
      rw [hnone, outlets, setLevels_sinks]
      rfl

end Journal

/-- The tree after a log file has been opened: directories on the way and the file are made. -/
def openLog (files : Tree) (text : String) : Except Files.Failure Tree := do
  let path := Path.ofString text
  let files ← files.ensureDirectory path.parent
  return (← files.openAppend (Journal.absolute files path)).1

/-- A setup whose file has a text for its path opens this file or fails with what that fails
with. -/
theorem Journal.openFile_of_text {s : Setup} {text : String} (htext : s.filePath = .text text)
    (template : Template) (files : Tree) :
    match openLog files text with
    | .error f => (openFile s template files).1 = .error (.file f)
    | .ok files' => ∃ f, openFile s template files = (.ok f, files') := by
  unfold openFile openLog LogFile.open_
  rw [htext]
  dsimp only
  rcases files.ensureDirectory (Path.ofString text).parent with f | made
  · rfl
  · rcases hopen : made.openAppend (absolute made (Path.ofString text)) with f | ⟨files', l⟩
    · simp [hopen, bind, Except.bind]
    · simp [hopen, bind, Except.bind, pure, Except.pure]

/-- A setup without a file can be used if its format is a template. -/
theorem Journal.setUp_console (journal : Journal) {s : Setup} {template : Template}
    (htemplate : Template.ofScalar s.format = .ok template) (hfile : s.fileEnabled = false)
    (isTerminal : Bool) (files : Tree) :
    ∃ journal', journal.setUp s isTerminal files = (.ok (), journal', files) := by
  unfold setUp
  simp only [htemplate, hfile, Bool.false_eq_true, if_false]
  exact ⟨_, rfl⟩

theorem Journal.setUp_of_text (journal : Journal) {s : Setup} {text : String} {template : Template}
    (htemplate : Template.ofScalar s.format = .ok template) (hfile : s.fileEnabled = true)
    (htext : s.filePath = .text text) (isTerminal : Bool) (files : Tree) :
    match openLog files text with
    | .error f => (journal.setUp s isTerminal files).1 = .error (.file f)
    | .ok files' => ∃ journal', journal.setUp s isTerminal files = (.ok (), journal', files') := by
  have hopen := openFile_of_text htext template files
  unfold setUp
  simp only [htemplate, hfile, if_true]
  generalize openLog files text = opened at *
  rcases opened with f | files'
  · dsimp only at hopen ⊢
    split
    next hfailed =>
      rw [hfailed] at hopen
      rw [← Except.error.inj hopen]
    next hdone =>
      rw [hdone] at hopen
      contradiction
  · obtain ⟨f, hdone⟩ := hopen
    rw [hdone]
    exact ⟨_, rfl⟩

namespace Setup

variable {s : Setup} {l : Config.LogSettings}

theorem format_withFileOf (s : Setup) (l : Config.LogSettings) :
    (s.withFileOf l).format = s.format := by
  unfold withFileOf
  split
  next => split <;> rfl
  next => rfl

theorem console_withFileOf (s : Setup) (l : Config.LogSettings) (template : Template)
    (isTerminal : Bool) :
    Journal.console (s.withFileOf l) template isTerminal =
      Journal.console s template isTerminal := by
  unfold withFileOf
  split
  next => split <;> rfl
  next => rfl

/-- A setup that has a file keeps it. -/
theorem withFileOf_of_taken (htaken : s.fileEnabled = true) : s.withFileOf l = s := by
  unfold withFileOf
  split
  next => rw [if_pos htaken]
  next => rfl

/-- A setup without a file takes over the one of a section. -/
theorem withFileOf_of_free {path : Config.Scalar} (hfree : s.fileEnabled = false)
    (hfile : logFile? l = some path) :
    s.withFileOf l = { s with
      fileEnabled := true
      filePath := path
      fileLevel := l.fileLevel
      fileLimit := l.fileMaxSize * megabyte
      fileKeep := l.fileKeep } := by
  unfold withFileOf
  rw [hfile]
  dsimp only
  rw [hfree, if_neg Bool.false_ne_true]

theorem withFileOf_of_none (hfile : logFile? l = none) : s.withFileOf l = s := by
  unfold withFileOf
  rw [hfile]

end Setup

end SupplyGauge.Log
