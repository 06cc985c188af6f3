import SupplyGauge.Daemon.State
import SupplyGauge.Proofs.Config.Lexing
import SupplyGauge.Proofs.Config.Locality

/-! # Types of settings

Each field of the settings has a type of its own. Fields that are converted when a document is
loaded have it always. Seven texts are kept as they are written, and of these a field that is given
as something else than a text does not have its type. No daemon can be made of settings where that
is so of the topic prefix, and no log can be set up where it is so of the layout of lines or of the
file.
-/

namespace SupplyGauge.Config

/-- Types of fields. -/
inductive FieldType where
  | text
  | optionalText
  | whole
  | flag
  | real
  | mode
  deriving DecidableEq, Repr

def Field.type : Field → FieldType
  | host | topicPrefix | level | fileLevel | format | sysfs | namespace_ | ignoredDevices => .text
  | username | password | clientId | file => .optionalText
  | port | qos | keepalive | fileMaxSize | fileKeep => .whole
  | colors => .flag
  | updateInterval => .real
  | retain => .mode

inductive Content.HasType : Content → FieldType → Prop
  | text (s : String) : HasType (.scalar (.text s)) .text
  | nothing : HasType .nothing .optionalText
  | someText (s : String) : HasType (.scalar (.text s)) .optionalText
  | whole (n : Int) : HasType (.scalar (.whole n)) .whole
  | flag (b : Bool) : HasType (.scalar (.flag b)) .flag
  | real (x : Binary64) : HasType (.scalar (.real x)) .real
  | mode (m : RetainMode) : HasType (.mode m) .mode

/-- The fields that are kept as they are written. -/
def Field.kept : List Field := [host, username, password, clientId, topicPrefix, file, format]

/-- Whether a value is a text. -/
def Scalar.IsText (v : Scalar) : Prop := ∃ s, v = .text s

theorem Scalar.not_isText_whole (n : Int) : ¬ (Scalar.whole n).IsText := by
  rintro ⟨s, hs⟩
  contradiction

theorem Content.hasType_text_iff {v : Scalar} :
    (Content.scalar v).HasType .text ↔ v.IsText := by
  constructor
  · intro h
    cases h
    exact ⟨_, rfl⟩
  · rintro ⟨s, rfl⟩
    exact .text s

theorem Content.hasType_optionalText_iff {v : Option Scalar} :
    (Content.ofOption v).HasType .optionalText ↔ ∀ w, v = some w → w.IsText := by
  constructor
  · rintro h w rfl
    cases h
    exact ⟨_, rfl⟩
  · intro h
    cases v with
    | none => exact .nothing
    | some w =>
        obtain ⟨s, rfl⟩ := h w rfl
        exact .someText s

/-- What is converted has the type that it is converted to. -/
theorem Field.hasType_of_read {b : Option Block} {f : Field} {c : Content} (hf : f ∉ kept)
    (h : f.read b = .ok c) : c.HasType f.type := by
  have hmap {α : Type} {x : Except SettingsError α} {g : α → Content} (hx : x.map g = .ok c) :
      ∃ a, c = g a := by
    cases x with
    | error e => contradiction
    | ok a => exact ⟨a, (Except.ok.inj hx).symm⟩
  cases f with
  | host | username | password | clientId | topicPrefix | file | format =>
      exact absurd (by decide) hf
  | colors =>
      obtain rfl := Except.ok.inj h
      exact .flag _
  | port | qos | keepalive | fileMaxSize | fileKeep =>
      obtain ⟨n, rfl⟩ := hmap h
      exact .whole n
  | level | fileLevel | sysfs | namespace_ | ignoredDevices =>
      obtain ⟨s, rfl⟩ := hmap h
      exact .text s
  | updateInterval =>
      obtain ⟨x, rfl⟩ := hmap h
      exact .real x
  | retain =>
      obtain ⟨m, rfl⟩ := hmap h
      exact .mode m

/-- What is kept as it is written has its type where it is a text, or is not given. -/
theorem Field.hasType_kept_iff {b : Option Block} {f : Field} {c : Content} (hf : f ∈ kept)
    (h : f.read b = .ok c) : c.HasType f.type ↔ ∀ v, setting? b f.name = some v → v.IsText := by
  have htext {v : Option Scalar} {s : String} :
      (Content.ofOption (v.or (some (.text s)))).HasType .text ↔ ∀ w, v = some w → w.IsText := by
    rw [Content.ofOption_or_some, Content.hasType_text_iff]
    cases v with
    | none => simp [Scalar.IsText]
    | some w => simp
  cases f with
  | host | topicPrefix | format =>
      obtain rfl := Except.ok.inj h
      exact htext
  | username | password | clientId | file =>
      obtain rfl := Except.ok.inj h
      rw [Option.or_none]
      exact Content.hasType_optionalText_iff
  | _ => exact absurd hf (by decide)

/-- A field has its type unless it is kept as it is written and given as something else than a
text. -/
theorem Settings.hasType_iff {d : Document} {s : Settings} (h : Settings.ofDocument d = .ok s)
    (f : Field) : (f.content s).HasType f.type ↔
      ¬ (f ∈ Field.kept ∧ ∃ v, d.entry? f = some v ∧ ¬ v.IsText) := by
  have hread := read_of_ofDocument h f
  by_cases hf : f ∈ Field.kept
  · rw [Field.hasType_kept_iff hf hread]
    simp [hf, Document.entry?]
  · simp [hf, Field.hasType_of_read hf hread]

/-! ## What settings are used for -/

/-- The pattern of settings that a document gives can be read again. -/
theorem Settings.exists_pattern {d : Document} {s : Settings} (h : Settings.ofDocument d = .ok s) :
    ∃ p, Pattern.ofText s.supply.ignoredDevices = .ok p := by
  have hread := read_of_ofDocument h .ignoredDevices
  simp only [Field.read, Field.reading, Field.content] at hread
  cases hpattern : patternSetting (d.block? Field.ignoredDevices.section_) with
  | error e =>
      rw [hpattern] at hread
      contradiction
  | ok pattern =>
      rw [hpattern] at hread
      obtain rfl : pattern = s.supply.ignoredDevices :=
        Scalar.text.inj (Content.scalar.inj (Except.ok.inj hread))
      obtain ⟨_, -, hcheck⟩ := bind_eq_ok_iff.mp hpattern
      obtain ⟨p, hp, hsame⟩ := bind_eq_ok_iff.mp hcheck
      obtain rfl := Except.ok.inj hsame
      cases hcompiled : Pattern.ofText _ with
      | error e =>
          rw [hcompiled] at hp
          contradiction
      | ok p => exact ⟨p, rfl⟩

/-- A daemon can be made of settings exactly if the topic prefix is a text. -/
theorem Settings.exists_daemon_iff {d : Document} {s : Settings} (h : Settings.ofDocument d = .ok s)
    (digits : String) (journal : Log.Journal) (stamp : Log.Stamp) (paper : Log.Paper)
    (interruptible : Bool) (scene : Scene) :
    (∃ daemon, Daemon.State.make s digits journal stamp paper interruptible scene = .ok daemon) ↔
      s.mqtt.topicPrefix.IsText := by
  obtain ⟨p, hp⟩ := exists_pattern h
  have hcollector : Supply.Collector.ofSettings s.supply = .ok ⟨s.supply, p.search⟩ := by
    unfold Supply.Collector.ofSettings
    rw [hp]
    rfl
  unfold Daemon.State.make
  constructor
  · rintro ⟨daemon, hmake⟩
    obtain ⟨topic, -, hmake⟩ := bind_eq_ok_iff.mp hmake
    obtain ⟨client, -, hmake⟩ := bind_eq_ok_iff.mp hmake
    split at hmake
    next t ht => exact ⟨t, ht⟩
    next => contradiction
  · rintro ⟨t, ht⟩
    have htopic : ∃ topic, Mqtt.availabilityTopic s.mqtt.topicPrefix = .ok topic := by
      rw [ht]
      exact ⟨_, rfl⟩
    obtain ⟨topic, htopic⟩ := htopic
    have hclient : ∃ client, Mqtt.Client.make s.mqtt (some topic) digits scene = .ok client := by
      unfold Mqtt.Client.make
      split
      next => exact ⟨_, rfl⟩
      next =>
        rw [htopic]
        exact ⟨_, rfl⟩
    obtain ⟨client, hclient⟩ := hclient
    simp only [htopic, hclient, hcollector, mapError_ok, bind, Except.bind]
    rw [ht]
    exact ⟨_, rfl⟩

end SupplyGauge.Config

namespace SupplyGauge.Log

open Config (LogSettings)

theorem Setup.format_ofSettings (s : LogSettings) : (Setup.ofSettings s).format = s.format := by
  unfold ofSettings
  split <;> rfl

/-- A setup has a file if the settings name one that is set. -/
theorem Setup.fileEnabled_ofSettings (s : LogSettings) :
    (Setup.ofSettings s).fileEnabled = true ↔
      ∃ v, s.file = some v ∧ v.isSet = true ∧ (Setup.ofSettings s).filePath = v := by
  unfold ofSettings
  split
  next path hpath => simpa using Option.filter_eq_some_iff.mp hpath
  next hnone =>
    simp only [Bool.false_eq_true, false_iff, not_exists, not_and]
    intro v hfile hset
    rw [logFile?, hfile, Option.filter_some_pos hset] at hnone
    contradiction

theorem Template.ofScalar_notText_iff {v : Config.Scalar} :
    (∃ n, Template.ofScalar v = .error (.notText n)) ↔ v.isSet = true ∧ ¬ v.IsText := by
  unfold ofScalar
  by_cases hset : v.isSet = true
  · cases v with
    | text text =>
        simp only [hset, Bool.not_true, Bool.false_eq_true, if_false, Config.Scalar.IsText]
        split <;> simp
    | flag | whole | real => simp [hset, Config.Scalar.IsText]
  · simp [hset]

/-- What opening a file fails with. -/
theorem Journal.openFile_error {s : Setup} {template : Template} {files : Files.Tree}
    {e : SetupError} (h : (openFile s template files).1 = .error e) :
    (∃ f, e = .file f) ∧ s.filePath.IsText ∨ (∃ n, e = .pathNotText n) ∧ ¬ s.filePath.IsText := by
  unfold openFile at h
  split at h
  next text htext =>
    refine .inl ⟨?_, text, htext⟩
    dsimp only at h
    split at h
    next f _ => exact ⟨f, (Except.error.inj h).symm⟩
    next =>
      split at h
      next f _ => exact ⟨f, (Except.error.inj h).symm⟩
      next => contradiction
  next v hv => exact .inr ⟨⟨_, (Except.error.inj h).symm⟩, fun ⟨t, ht⟩ => hv t ht⟩

theorem Journal.openFile_notText {s : Setup} (h : ¬ s.filePath.IsText) (template : Template)
    (files : Files.Tree) :
    (openFile s template files).1 = .error (.pathNotText s.filePath.typeName) := by
  unfold openFile
  split
  next text htext => exact absurd ⟨text, htext⟩ h
  next => rfl

/-- A log is set up if its layout is taken, and its file can be opened if it has one. -/
theorem Journal.setUp_fst (journal : Journal) (s : Setup) (isTerminal : Bool) (files : Files.Tree) :
    (journal.setUp s isTerminal files).1 =
      match Template.ofScalar s.format with
      | .error e => .error (.template e)
      | .ok template =>
        if s.fileEnabled then (openFile s template files).1.map fun _ => () else .ok () := by
  unfold setUp
  cases Template.ofScalar s.format with
  | error e => rfl
  | ok template =>
      by_cases hfile : s.fileEnabled = true
      · simp only [hfile, if_true]
        rcases openFile s template files with ⟨e | f, files'⟩ <;> rfl
      · simp [hfile]

/-- Setting up a log fails for the type of a value if the layout is set and no text, or, where the
layout is taken, the file is set and no text. -/
theorem Journal.setUp_wrongType_iff (s : LogSettings) (journal : Journal) (isTerminal : Bool)
    (files : Files.Tree) :
    (∃ n, (journal.setUp (.ofSettings s) isTerminal files).1 = .error (.template (.notText n)) ∨
      (journal.setUp (.ofSettings s) isTerminal files).1 = .error (.pathNotText n)) ↔
    s.format.isSet = true ∧ ¬ s.format.IsText ∨ (∃ t, Template.ofScalar s.format = .ok t) ∧
      ∃ v, s.file = some v ∧ v.isSet = true ∧ ¬ v.IsText := by
  rw [← Template.ofScalar_notText_iff, setUp_fst, Setup.format_ofSettings]
  cases htemplate : Template.ofScalar s.format with
  | error e => simp
  | ok template =>
      have hfile := Setup.fileEnabled_ofSettings s
      simp only [reduceCtorEq, exists_false, false_or, Except.ok.injEq, exists_eq', true_and]
      constructor
      · rintro ⟨n, herror⟩
        by_cases henabled : (Setup.ofSettings s).fileEnabled = true
        · obtain ⟨v, hv, hset, hpath⟩ := hfile.mp henabled
          rw [if_pos henabled] at herror
          refine ⟨v, hv, hset, fun htext => ?_⟩
          cases hopen : (openFile (.ofSettings s) template files).1 with
          | ok f => simp [hopen, Except.map] at herror
          | error e =>
              rcases openFile_error hopen with ⟨⟨f, rfl⟩, -⟩ | ⟨-, hnone⟩
              · simp [hopen, Except.map] at herror
              · exact hnone (hpath ▸ htext)
        · simp [henabled] at herror
      · rintro ⟨v, hv, hset, htext⟩
        have henabled : (Setup.ofSettings s).fileEnabled = true := by
          unfold Setup.ofSettings logFile?
          rw [hv, Option.filter_some_pos hset]
        obtain ⟨w, hw, -, hpath⟩ := hfile.mp henabled
        obtain rfl := Option.some.inj (hv.symm.trans hw)
        rw [if_pos henabled, openFile_notText (hpath ▸ htext)]
        exact ⟨_, .inr rfl⟩

end SupplyGauge.Log

namespace SupplyGauge.Config

theorem Loader.ofDocument_of_loadText {l : Loader} {text filename : String} {s : Settings}
    (h : (l.loadText text filename).1 = .ok s) :
    ∃ d, Document.ofText filename text.toList = .ok d ∧ Settings.ofDocument d = .ok s := by
  unfold loadText at h
  cases hread : Document.ofText filename text.toList with
  | error e => simp [hread, accept] at h
  | ok d =>
      refine ⟨d, rfl, ?_⟩
      cases hsettings : Settings.ofDocument d with
      | error e => simp [hread, accept, hsettings] at h
      | ok s' => simpa [hread, accept, hsettings] using h

/-- A log file is no text if it is set and has not its type. -/
theorem LogSettings.exists_file_iff (s : LogSettings) :
    (∃ v, s.file = some v ∧ v.isSet = true ∧ ¬ v.IsText) ↔
      (Log.logFile? s).isSome = true ∧ ¬ (Content.ofOption s.file).HasType .optionalText := by
  rw [Content.hasType_optionalText_iff, Log.logFile?]
  cases s.file with
  | none => simp
  | some v => by_cases hset : v.isSet = true <;> simp [Option.filter, hset]

/-- Settings that are loaded have the types of all fields but those that are kept as they are
written and given as something else than a text. A daemon can be made of them exactly if the topic
prefix has its type. Setting up a log fails for a type exactly if the layout of lines is set and has
not its type, or the layout is taken and the file is set and has not its type. -/
theorem Loader.loadText_typed (l : Loader) (text filename : String) {s : Settings}
    (h : (l.loadText text filename).1 = .ok s) :
    ∃ d, Document.ofText filename text.toList = .ok d ∧
      (∀ f : Field, (f.content s).HasType f.type ↔
        ¬ (f ∈ Field.kept ∧ ∃ v, d.entry? f = some v ∧ ¬ v.IsText)) ∧
      (∀ (digits : String) (journal : Log.Journal) (stamp : Log.Stamp) (paper : Log.Paper)
        (interruptible : Bool) (scene : Scene),
        (∃ daemon, Daemon.State.make s digits journal stamp paper interruptible scene =
          .ok daemon) ↔ (Field.topicPrefix.content s).HasType Field.topicPrefix.type) ∧
      ∀ (journal : Log.Journal) (isTerminal : Bool) (files : Files.Tree),
        (∃ n, (journal.setUp (.ofSettings s.logging) isTerminal files).1 =
            .error (.template (.notText n)) ∨
          (journal.setUp (.ofSettings s.logging) isTerminal files).1 = .error (.pathNotText n)) ↔
        s.logging.format.isSet = true ∧ ¬ (Field.format.content s).HasType Field.format.type ∨
          (∃ t, Log.Template.ofScalar s.logging.format = .ok t) ∧
            (Log.logFile? s.logging).isSome = true ∧
            ¬ (Field.file.content s).HasType Field.file.type := by
  obtain ⟨d, hread, hsettings⟩ := ofDocument_of_loadText h
  refine ⟨d, hread, Settings.hasType_iff hsettings, fun digits journal stamp paper interruptible
    scene => ?_, fun journal isTerminal files => ?_⟩
  · rw [Settings.exists_daemon_iff hsettings]
    exact Content.hasType_text_iff.symm
  · rw [Log.Journal.setUp_wrongType_iff, LogSettings.exists_file_iff]
    have hformat : (Field.format.content s).HasType Field.format.type ↔ s.logging.format.IsText :=
      Content.hasType_text_iff
    rw [hformat]
    rfl

/-- A settings text that gives a number as topic prefix. -/
def numbered : String := "mqtt\x7btopic_prefix 5;\x7d"

theorem lexemes_numbered : lexemes numbered.toList =
    ([⟨.identifier, "mqtt".toList⟩, ⟨.punctuation, ['\x7b']⟩,
      ⟨.identifier, "topic_prefix".toList⟩, ⟨.space, [' ']⟩, ⟨.number, ['5']⟩,
      ⟨.punctuation, [';']⟩, ⟨.punctuation, ['\x7d']⟩], none) := by
  have hvalue := lexemes_read .number '5' [] (lexemes_read .punctuation ';' []
    (lexemes_read .punctuation '\x7d' [] lexemes_nil rfl) rfl) rfl
  have hname := lexemes_read .identifier 't' "opic_prefix".toList
    (lexemes_read .space ' ' [] hvalue rfl) rfl
  exact lexemes_read .identifier 'm' "qtt".toList
    (lexemes_read .punctuation '\x7b' [] hname rfl) rfl

theorem ofText_numbered (filename : String) : Document.ofText filename numbered.toList =
    .ok ⟨filename, [], [.mk "mqtt" none 1 [⟨"topic_prefix", [.whole 5], 1⟩] []]⟩ := by
  unfold Document.ofText Tokens.ofText
  rw [lexemes_numbered]
  rfl

/-- The text is loaded, and no daemon can be made of the settings. -/
theorem Loader.loadText_typed_numbered :
    let s : Settings := { mqtt := { topicPrefix := .whole 5 } }
    (Loader.fresh.loadText numbered "c.conf").1 = .ok s ∧
      ¬ (Field.topicPrefix.content s).HasType Field.topicPrefix.type ∧
      (Field.host.content s).HasType Field.host.type ∧
      ∀ (digits : String) (journal : Log.Journal) (stamp : Log.Stamp) (paper : Log.Paper)
        (interruptible : Bool) (scene : Scene),
        ¬ ∃ daemon, Daemon.State.make s digits journal stamp paper interruptible scene =
          .ok daemon := by
  intro s
  have hsettings : Settings.ofDocument ⟨"c.conf", [],
      [.mk "mqtt" none 1 [⟨"topic_prefix", [.whole 5], 1⟩] []]⟩ = .ok s :=
    Settings.ofDocument_of_sections rfl rfl rfl
  have hload : (Loader.fresh.loadText numbered "c.conf").1 = .ok s := by
    unfold loadText
    rw [ofText_numbered, accept, hsettings]
    rfl
  obtain ⟨d, hread, htypes, hdaemon, -⟩ :=
    Loader.loadText_typed Loader.fresh numbered "c.conf" hload
  rw [ofText_numbered] at hread
  obtain rfl := Except.ok.inj hread
  have hprefix : ¬ (Field.topicPrefix.content s).HasType Field.topicPrefix.type := fun htyped =>
    (htypes .topicPrefix).mp htyped ⟨by decide, _, rfl, Scalar.not_isText_whole 5⟩
  refine ⟨hload, hprefix, Content.hasType_text_iff.mpr ⟨_, rfl⟩, fun _ _ _ _ _ _ => ?_⟩
  rw [hdaemon]
  exact hprefix

end SupplyGauge.Config
