import SupplyGauge.Config.Loader
import SupplyGauge.Proofs.Config.Conversions

/-! # Fields of settings

The settings have twenty fields that directives give, each in its own way: as written, as text, as a
whole number or a flag, or by a conversion of its own. Settings that a document gives hold in each
field what is read of the directive of its name in the section of the field.
-/

namespace SupplyGauge.Config

/-- A field of the settings that a directive gives. -/
inductive Field where
  | host
  | port
  | username
  | password
  | clientId
  | topicPrefix
  | qos
  | retain
  | keepalive
  | level
  | file
  | fileLevel
  | fileMaxSize
  | fileKeep
  | colors
  | format
  | sysfs
  | namespace_
  | ignoredDevices
  | updateInterval
  deriving DecidableEq, Repr

/-- What a field holds: nothing, a value, or a retain mode. -/
inductive Content where
  | nothing
  | scalar (v : Scalar)
  | mode (m : RetainMode)
  deriving DecidableEq

def Content.ofOption : Option Scalar → Content
  | none => .nothing
  | some v => .scalar v

theorem Content.ofOption_or_some (v : Option Scalar) (default : Scalar) :
    ofOption (v.or (some default)) = .scalar (v.getD default) := by
  cases v <;> rfl

/-- How the value of a directive becomes that of a field. -/
inductive Reading where
  | asWritten (default : Option Scalar)
  | text (default : String)
  | whole (default : Int)
  | flag (default : Bool)
  | retain
  | qos
  | pattern
  | interval

namespace Field

def all : List Field :=
  [host, port, username, password, clientId, topicPrefix, qos, retain, keepalive, level, file,
    fileLevel, fileMaxSize, fileKeep, colors, format, sysfs, namespace_, ignoredDevices,
    updateInterval]

/-- The section that a field belongs to. -/
def section_ : Field → String
  | host | port | username | password | clientId | topicPrefix | qos | retain | keepalive => "mqtt"
  | level | file | fileLevel | fileMaxSize | fileKeep | colors | format => "logging"
  | sysfs | namespace_ | ignoredDevices | updateInterval => "power_supply"

/-- The name of the directive that gives a field. -/
def name : Field → String
  | host => "host"
  | port => "port"
  | username => "username"
  | password => "password"
  | clientId => "client_id"
  | topicPrefix => "topic_prefix"
  | qos => "qos"
  | retain => "retain"
  | keepalive => "keepalive"
  | level => "level"
  | file => "file"
  | fileLevel => "file_level"
  | fileMaxSize => "file_max_size"
  | fileKeep => "file_keep"
  | colors => "colors"
  | format => "format"
  | sysfs => "sysfs"
  | namespace_ => "namespace"
  | ignoredDevices => "ignored_devices"
  | updateInterval => "update_interval"

def reading : Field → Reading
  | host => .asWritten (some (.text "localhost"))
  | username | password | clientId | file => .asWritten none
  | topicPrefix => .asWritten (some (.text "power_supply_metrics"))
  | format => .asWritten (some (.text defaultLogFormat))
  | port => .whole 1883
  | keepalive => .whole 60
  | fileMaxSize => .whole 10
  | fileKeep => .whole 5
  | level => .text "info"
  | fileLevel => .text "debug"
  | sysfs => .text "/sys"
  | namespace_ => .text "node"
  | colors => .flag true
  | retain => .retain
  | qos => .qos
  | ignoredDevices => .pattern
  | updateInterval => .interval

/-- What settings hold in a field. -/
def content (s : Settings) : Field → Content
  | host => .scalar s.mqtt.host
  | port => .scalar (.whole s.mqtt.port)
  | username => .ofOption s.mqtt.username
  | password => .ofOption s.mqtt.password
  | clientId => .ofOption s.mqtt.clientId
  | topicPrefix => .scalar s.mqtt.topicPrefix
  | qos => .scalar (.whole s.mqtt.qos)
  | retain => .mode s.mqtt.retain
  | keepalive => .scalar (.whole s.mqtt.keepalive)
  | level => .scalar (.text s.logging.level)
  | file => .ofOption s.logging.file
  | fileLevel => .scalar (.text s.logging.fileLevel)
  | fileMaxSize => .scalar (.whole s.logging.fileMaxSize)
  | fileKeep => .scalar (.whole s.logging.fileKeep)
  | colors => .scalar (.flag s.logging.colors)
  | format => .scalar s.logging.format
  | sysfs => .scalar (.text s.supply.sysfs)
  | namespace_ => .scalar (.text s.supply.namespace_)
  | ignoredDevices => .scalar (.text s.supply.ignoredDevices)
  | updateInterval => .scalar (.real s.supply.updateInterval)

/-- What is read for a field of a section that may be absent. -/
def read (b : Option Block) (f : Field) : Except SettingsError Content :=
  match f.reading with
  | .asWritten default => .ok (.ofOption ((setting? b f.name).or default))
  | .text default => (textSetting b f.name default).map fun s => .scalar (.text s)
  | .whole default => (wholeSetting b f.name default).map fun n => .scalar (.whole n)
  | .flag default =>
    .ok (.scalar (.flag (((setting? b f.name).map Scalar.isSet).getD default)))
  | .retain => (retainSetting b).map .mode
  | .qos => (qosSetting b).map fun n => .scalar (.whole n)
  | .pattern => (patternSetting b).map fun s => .scalar (.text s)
  | .interval => (intervalSetting b).map fun x => .scalar (.real x)

end Field

/-- The first value of the first directive for a field in the first block of its section. -/
def Document.entry? (d : Document) (f : Field) : Option Scalar :=
  setting? (d.block? f.section_) f.name

/-- The directives that are known in a section are those of its fields. -/
theorem knownDirectives?_eq {section_ : String} {known : List String}
    (h : knownDirectives? section_ = some known) :
    known = (Field.all.filter (·.section_ == section_)).map Field.name := by
  unfold knownDirectives? at h
  split at h
  case h_4 => contradiction
  all_goals exact (Option.some.inj h).symm.trans (by decide)

theorem mem_known_iff {section_ name : String} :
    (∃ known, knownDirectives? section_ = some known ∧ name ∈ known) ↔
      ∃ f : Field, f.section_ = section_ ∧ f.name = name := by
  constructor
  · rintro ⟨known, hknown, hname⟩
    rw [knownDirectives?_eq hknown, List.mem_map] at hname
    obtain ⟨f, hf, hname⟩ := hname
    exact ⟨f, by simpa using (List.mem_filter.mp hf).2, hname⟩
  · rintro ⟨f, rfl, rfl⟩
    cases f <;> exact ⟨_, rfl, by decide⟩

/-! ## Reading all fields -/

theorem bind_eq_ok_iff {ε α β : Type} {x : Except ε α} {f : α → Except ε β} {r : β} :
    x >>= f = .ok r ↔ ∃ a, x = .ok a ∧ f a = .ok r := by
  cases x with
  | error e => simp [bind, Except.bind]
  | ok a => simp [bind, Except.bind]

/-- Settings that a document gives hold in each field what is read for it. -/
theorem Settings.read_of_ofDocument {d : Document} {s : Settings}
    (h : Settings.ofDocument d = .ok s) (f : Field) :
    f.read (d.block? f.section_) = .ok (f.content s) := by
  unfold Settings.ofDocument at h
  rw [MqttSettings.ofSection_eq, SupplySettings.ofSection_eq] at h
  unfold LogSettings.ofSection at h
  simp only [bind_eq_ok_iff, pure, Except.pure, Except.ok.injEq] at h
  obtain ⟨_, ⟨retain, hretain, qos, hqos, port, hport, keepalive, hkeepalive, rfl⟩,
    _, ⟨level, hlevel, fileLevel, hfileLevel, fileMaxSize, hsize, fileKeep, hkeep, rfl⟩,
    _, ⟨pattern, hpattern, interval, hinterval, sysfs, hsysfs, namespace_, hnamespace, rfl⟩,
    rfl⟩ := h
  cases f with
  | retain => exact congrArg (Except.map Content.mode) hretain
  | qos => exact congrArg (Except.map _) hqos
  | port => exact congrArg (Except.map _) hport
  | keepalive => exact congrArg (Except.map _) hkeepalive
  | level => exact congrArg (Except.map _) hlevel
  | fileLevel => exact congrArg (Except.map _) hfileLevel
  | fileMaxSize => exact congrArg (Except.map _) hsize
  | fileKeep => exact congrArg (Except.map _) hkeep
  | ignoredDevices => exact congrArg (Except.map _) hpattern
  | updateInterval => exact congrArg (Except.map _) hinterval
  | sysfs => exact congrArg (Except.map _) hsysfs
  | namespace_ => exact congrArg (Except.map _) hnamespace
  | username | password | clientId | file =>
      exact congrArg (Except.ok ∘ Content.ofOption) Option.or_none
  | host | topicPrefix | format => exact congrArg Except.ok (Content.ofOption_or_some _ _)
  | colors => rfl

end SupplyGauge.Config
