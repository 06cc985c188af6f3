import SupplyGauge.Proofs.Config.Failures

/-! # Loading again

A loader that loads again and again holds the latest document that could be read, and not the one
that the settings in use come from. A load that fails before there is a document leaves the loader
as it was. One whose document is refused does not: from then on validation is about that document,
though the settings in use have not changed.
-/

namespace SupplyGauge.Config

/-- What settings are loaded from: a text, or a file. -/
inductive Source where
  | text (content filename : String)
  | file (files : Files.Tree) (path : Files.Path)

/-- The characters of a source, and what the source is called. -/
def Source.read : Source → Except LoadError (String × List Char)
  | .text content filename => .ok (filename, content.toList)
  | .file files path => (Loader.readFile files path).map (path.toString, ·)

/-- The document that can be read from a source, if there is one. -/
def Source.document? (source : Source) : Option Document :=
  source.read.toOption.bind fun (filename, content) =>
    (Document.ofText filename content).toOption

def Loader.load (l : Loader) : Source → Except LoadError Settings × Loader
  | .text content filename => l.loadText content filename
  | .file files path => l.loadFile files path

/-- A loader with the settings in use, which are replaced by every load that succeeds. -/
structure Session where
  loader : Loader := .fresh
  settings : Settings := {}

namespace Session

def step (s : Session) (source : Source) : Session :=
  match s.loader.load source with
  | (.ok settings, loader) => { loader, settings }
  | (.error _, loader) => { s with loader }

def run (s : Session) (sources : List Source) : Session := sources.foldl step s

end Session

/-! ## One load -/

namespace Loader

/-- A load reads its source, then the document, and then the settings. -/
theorem load_eq (l : Loader) (source : Source) : l.load source =
    match source.read with
    | .error e => (.error e, l)
    | .ok (filename, content) => l.accept (Document.ofText filename content) := by
  cases source with
  | text content filename => rfl
  | file files path =>
      simp only [load, loadFile, Source.read]
      cases readFile files path <;> rfl

/-- What a load gives does not depend on what has been loaded before. -/
theorem load_fst (l l' : Loader) (source : Source) : (l.load source).1 = (l'.load source).1 := by
  rw [load_eq, load_eq]
  cases source.read with
  | error e => rfl
  | ok content =>
      change (l.accept _).1 = (l'.accept _).1
      cases Document.ofText content.1 content.2 <;> rfl

/-- After a load, a loader holds the document that could be read, or else the one from before. -/
theorem load_document (l : Loader) (source : Source) :
    (l.load source).2.document = source.document?.or l.document := by
  rw [load_eq, Source.document?]
  cases source.read with
  | error e => rfl
  | ok content =>
      change (l.accept _).2.document = (Document.ofText content.1 content.2).toOption.or _
      cases Document.ofText content.1 content.2 <;> rfl

/-- A source that cannot be read gives nothing that could be refused. -/
theorem read_ne_invalid {source : Source} {e : LoadError} (h : source.read = .error e)
    (refusal : SettingsError) : e ≠ .invalid refusal := by
  rintro rfl
  cases source with
  | text content filename => contradiction
  | file files path =>
      rw [Source.read, readFile_eq] at h
      split at h
      · split at h <;> cases h
      · next place bytes _ =>
          cases hdecode : Utf8.decode bytes <;> simp [hdecode, Except.map] at h
      · cases h

/-- Among the loads that fail, those with a document are the ones whose settings are refused. -/
theorem load_invalid_iff {l : Loader} {source : Source} {e : LoadError}
    (h : (l.load source).1 = .error e) :
    (∃ refusal, e = .invalid refusal) ↔ ∃ d, source.document? = some d := by
  rw [load_eq] at h
  unfold Source.document?
  cases hread : source.read with
  | error fault =>
      rw [hread] at h
      obtain rfl : fault = e := Except.error.inj h
      simp [read_ne_invalid hread, Except.toOption]
  | ok content =>
      simp only [hread, accept] at h
      cases hdocument : Document.ofText content.1 content.2 with
      | error fault =>
          rw [hdocument] at h
          obtain rfl : LoadError.syntax_ fault = e := Except.error.inj h
          simp [hdocument, Except.toOption]
      | ok d =>
          simp only [hdocument] at h
          cases hsettings : Settings.ofDocument d with
          | error refusal =>
              rw [hsettings] at h
              obtain rfl : LoadError.invalid refusal = e := Except.error.inj h
              simp [hdocument, Except.toOption]
          | ok s =>
              rw [hsettings] at h
              contradiction

theorem eq_iff_document_eq {l l' : Loader} : l' = l ↔ l'.document = l.document := by
  cases l
  cases l'
  simp

end Loader

/-! ## Sessions -/

namespace Session

theorem step_loader (s : Session) (source : Source) :
    (s.step source).loader = (s.loader.load source).2 := by
  unfold step
  split
  all_goals
    next hload => rw [hload]

theorem step_settings (s : Session) (source : Source) :
    (s.step source).settings = (s.loader.load source).1.toOption.getD s.settings := by
  unfold step
  split
  all_goals
    next hload =>
      rw [hload]
      rfl

/-- However many loads have failed, a loader holds the document that was read last. -/
theorem run_document (s : Session) (sources : List Source) :
    (s.run sources).loader.document =
      (sources.filterMap Source.document?).getLast?.or s.loader.document := by
  induction sources generalizing s with
  | nil => rfl
  | cons source rest ih =>
      have hrest := ih (s.step source)
      rw [step_loader, Loader.load_document] at hrest
      rw [run, List.foldl_cons, ← run, hrest, List.filterMap_cons]
      cases source.document? with
      | none => rfl
      | some d =>
          rw [List.getLast?_cons]
          cases (rest.filterMap Source.document?).getLast? <;> rfl

/-- The settings in use are those of the last load that succeeded. -/
theorem run_settings (s : Session) (sources : List Source) : (s.run sources).settings =
    ((sources.filterMap fun source => (Loader.fresh.load source).1.toOption).getLast?).getD
      s.settings := by
  induction sources generalizing s with
  | nil => rfl
  | cons source rest ih =>
      have hrest := ih (s.step source)
      rw [step_settings, Loader.load_fst s.loader .fresh] at hrest
      rw [run, List.foldl_cons, ← run, hrest, List.filterMap_cons]
      cases (Loader.fresh.load source).1.toOption with
      | none => rfl
      | some settings =>
          rw [List.getLast?_cons]
          generalize (rest.filterMap fun source => (Loader.fresh.load source).1.toOption) = later
          cases later.getLast? <;> rfl

/-- Loaders that hold documents with the same warnings, or no document, agree about all settings. -/
theorem validate_eq_iff {l l' : Loader} {settings : Settings} :
    l'.validate settings = l.validate settings ↔
      (l'.document.map Document.warnings).getD [] = (l.document.map Document.warnings).getD [] := by
  unfold Loader.validate
  exact List.append_left_inj _

/-- After any sequence of loads, one more load that fails leaves the settings in use as they are. It
leaves the loader as it was exactly if there is no document in what it failed on, or the same one as
before. So the loader is kept whenever the source cannot be read or is no document, and the only
failure that changes it is that of settings that are refused: then the refused document is held, and
the warnings about the settings in use are those about the refused document. -/
theorem failed_load_keeps_iff (sources : List Source) (source : Source) {e : LoadError}
    (h : ((run {} sources).loader.load source).1 = .error e) :
    let before := run {} sources
    let after := run {} (sources ++ [source])
    before.loader.document = (sources.filterMap Source.document?).getLast? ∧
      before.settings = ((sources.filterMap fun source =>
        (Loader.fresh.load source).1.toOption).getLast?).getD {} ∧
      after.settings = before.settings ∧
      (after.loader = before.loader ↔
        ∀ d, source.document? = some d → before.loader.document = some d) ∧
      ((∃ refusal, e = .invalid refusal) ↔ ∃ d, source.document? = some d) ∧
      (after.loader.validate after.settings = before.loader.validate before.settings ↔
        ∀ d, source.document? = some d →
          d.warnings = (before.loader.document.map Document.warnings).getD []) := by
  intro before after
  have hafter : after = before.step source := by
    change run {} (sources ++ [source]) = _
    rw [run, List.foldl_append]
    rfl
  have hdocument : after.loader.document = source.document?.or before.loader.document := by
    rw [hafter, step_loader, Loader.load_document]
  have hsettings : after.settings = before.settings := by
    rw [hafter, step_settings, show (before.loader.load source).1 = .error e from h]
    rfl
  -- what a failed load leaves is told by the document it has read, if any
  refine ⟨?_, run_settings {} sources, hsettings, ?_, Loader.load_invalid_iff h, ?_⟩
  · rw [run_document]
    exact Option.or_none
  · rw [Loader.eq_iff_document_eq, hdocument]
    cases source.document? with
    | none => simp
    | some d => simp [eq_comm]
  · rw [hsettings, validate_eq_iff, hdocument]
    cases source.document? with
    | none => simp
    | some d => simp

theorem exists_error_of_toOption {ε α : Type} {x : Except ε α} (h : x.toOption = none) :
    ∃ e, x = .error e := by
  cases x with
  | error e => exact ⟨e, rfl⟩
  | ok a => contradiction

/-- The second of two documents is refused, and held instead of the first one; so there is a warning
about settings in use that there has not been before. A third text is no document, and changes
nothing. -/
theorem failed_load_keeps_iff_refused :
    let first : Source := .text "mqtt\x7b\x7d" "a.conf"
    let second : Source := .text "mqtt\x7bqos 7;\x7d mood on;" "b.conf"
    let third : Source := .text "mqtt\x7b" "c.conf"
    (run {} [first, second]).loader ≠ (run {} [first]).loader ∧
      (run {} [first, second]).settings = (run {} [first]).settings ∧
      (run {} [first, second]).loader.validate (run {} [first, second]).settings ≠
        (run {} [first]).loader.validate (run {} [first]).settings ∧
      (run {} [first, second, third]).loader = (run {} [first, second]).loader := by
  intro first second third
  obtain ⟨_, hsecond⟩ : ∃ e, ((run {} [first]).loader.load second).1 = .error e :=
    exists_error_of_toOption (by decide +kernel)
  obtain ⟨_, hthird⟩ : ∃ e, ((run {} [first, second]).loader.load third).1 = .error e :=
    exists_error_of_toOption (by decide +kernel)
  obtain ⟨-, -, hsettings, hkept, -, hvalid⟩ := failed_load_keeps_iff [first] second hsecond
  obtain ⟨-, -, -, hkeptThen, -, -⟩ := failed_load_keeps_iff [first, second] third hthird
  have hheld : (run {} [first]).loader.document.map Document.warnings = some [] := by
    decide +kernel
  obtain ⟨d, hd, hwarnings⟩ : ∃ d, second.document? = some d ∧ d.warnings ≠ [] := by
    have hwarned : (second.document?.map Document.warnings).any (· ≠ []) = true := by
      decide +kernel
    cases hd : second.document? with
    | none => simp [hd] at hwarned
    | some d => exact ⟨d, rfl, by simpa [hd] using hwarned⟩
  have hchanged : (run {} [first, second]).loader.validate (run {} [first, second]).settings ≠
      (run {} [first]).loader.validate (run {} [first]).settings := by
    intro hsame
    have heq := hvalid.mp hsame d hd
    rw [hheld] at heq
    exact hwarnings heq
  refine ⟨?_, hsettings, hchanged, ?_⟩
  · intro hsame
    have hfirst := hkept.mp hsame d hd
    rw [hfirst] at hheld
    exact hwarnings (Option.some.inj hheld)
  · have hnone : third.document? = none := by
      have hmissing : (third.document?.map Document.warnings) = none := by decide +kernel
      exact Option.map_eq_none_iff.mp hmissing
    exact hkeptThen.mpr (by simp [hnone])

end Session

end SupplyGauge.Config
