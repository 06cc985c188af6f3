import SupplyGauge.Config.Document
import SupplyGauge.Pattern.Search
/-! # Daemon settings

The settings of the three sections with their defaults, and how a document gives
them: each comes from the first value of the first directive of its name in the
first block of its section. Conversions are tried in a fixed order, so the first
value that cannot be converted decides the error.
-/

namespace SupplyGauge.Config

/-- Which messages the broker is asked to retain. -/
inductive RetainMode where
  | off
  | online
  | full
  deriving DecidableEq, Repr

def RetainMode.word : RetainMode → String
  | .off => "off"
  | .online => "online"
  | .full => "full"

def RetainMode.ofWord? : String → Option RetainMode
  | "off" => some .off
  | "online" => some .online
  | "full" => some .full
  | _ => none

def RetainMode.data : RetainMode → Bool
  | .full => true
  | _ => false

def RetainMode.status : RetainMode → Bool
  | .off => false
  | _ => true

/-- Connection to the broker. Texts that are passed on unchanged keep the value as written. -/
structure MqttSettings where
  host : Scalar := .text "localhost"
  port : Int := 1883
  username : Option Scalar := none
  password : Option Scalar := none
  clientId : Option Scalar := none
  topicPrefix : Scalar := .text "power_supply_metrics"
  qos : Int := 1
  retain : RetainMode := .online
  keepalive : Int := 60
  deriving DecidableEq

/-- Layout of a log line unless the settings give another. -/
def defaultLogFormat : String := "%(asctime)s [%(levelname)s] %(name)s: %(message)s"

/-- Logging as the settings ask for it; sizes are in megabytes. -/
structure LogSettings where
  level : String := "info"
  file : Option Scalar := none
  fileLevel : String := "debug"
  fileMaxSize : Int := 10
  fileKeep : Int := 5
  colors : Bool := true
  format : Scalar := .text defaultLogFormat
  deriving DecidableEq

/-- Devices that are left out unless the settings say otherwise: numbered batteries and
adapters. -/
def defaultIgnoredDevices : String := "^(BAT|AC)\\d+$"

/-- Collection of power supply readings. -/
structure SupplySettings where
  name : String := "power_supply"
  sysfs : String := "/sys"
  namespace_ : String := "node"
  ignoredDevices : String := defaultIgnoredDevices
  updateInterval : Binary64 := .ofInt 15
  deriving DecidableEq

/-- All settings of the daemon. -/
structure Settings where
  mqtt : MqttSettings := {}
  logging : LogSettings := {}
  supply : SupplySettings := {}
  deriving DecidableEq

/-- Why a document gives no settings. -/
inductive SettingsError where
  | badRetain (shown : String)
  | badQos (shown : String)
  | badPattern (pattern : String) (e : Pattern.Error)
  | badInterval (x : Binary64)
  | badNumber (fault : Numeral.Fault)
  deriving DecidableEq

/-- Whether a numeral fault is about the size of a number and not about its text. -/
def isOutOfRange : Numeral.Fault → Bool
  | .infinityNotWhole | .wholeTooLarge => true
  | _ => false

/-- Whether an error is about the size of a number or of a look-behind; such errors are not
reported as invalid settings. -/
def SettingsError.isOutOfRange : SettingsError → Bool
  | .badPattern _ .repetitionTooLarge | .badPattern _ .lookbehindTooLong => true
  | .badNumber fault => Config.isOutOfRange fault
  | _ => false

def SettingsError.message : SettingsError → String
  | .badRetain shown => s!"Invalid retain mode: {shown}"
  | .badQos shown => s!"Invalid MQTT qos: {shown}"
  | .badPattern pattern (.syntax_ fault position text) =>
    let reason := (Pattern.Error.syntax_ fault position text).message
    s!"Invalid ignored_devices pattern {Text.quoted pattern}: {reason}"
  | .badPattern _ e => e.message
  | .badInterval x => s!"update_interval must be positive, got {x.text .plain}"
  | .badNumber fault => fault.message

/-- The value of a setting in a section that may be absent. -/
def setting? (section_ : Option Block) (name : String) : Option Scalar :=
  section_.bind (·.value? name)

/-- A setting converted to a whole number, or its default. -/
def wholeSetting (section_ : Option Block) (name : String) (default : Int) :
    Except SettingsError Int :=
  match setting? section_ name with
  | none => .ok default
  | some v => v.toWhole.mapError .badNumber

/-- A setting as text, or its default. -/
def textSetting (section_ : Option Block) (name default : String) :
    Except SettingsError String :=
  match setting? section_ name with
  | none => .ok default
  | some v => v.display.mapError .badNumber

/-- The retain mode: a flag stands for all or nothing, a word for itself in any letter case. -/
def RetainMode.ofScalar : Scalar → Except SettingsError RetainMode
  | .flag true => .ok .full
  | .flag false => .ok .off
  | v => do
    let word ← v.display.mapError SettingsError.badNumber
    match ofWord? (Text.lowerAscii word) with
    | some mode => return mode
    | none => throw (.badRetain (← v.shown.mapError SettingsError.badNumber))

def MqttSettings.ofSection (b : Option Block) : Except SettingsError MqttSettings := do
  let retain ← match setting? b "retain" with
    | none => pure RetainMode.online
    | some v => RetainMode.ofScalar v
  let qos ← wholeSetting b "qos" 1
  unless qos = 0 ∨ qos = 1 ∨ qos = 2 do
    throw (.badQos (← (Numeral.textOf qos).mapError .badNumber))
  let port ← wholeSetting b "port" 1883
  let keepalive ← wholeSetting b "keepalive" 60
  return {
    host := (setting? b "host").getD (.text "localhost")
    port
    username := setting? b "username"
    password := setting? b "password"
    clientId := setting? b "client_id"
    topicPrefix := (setting? b "topic_prefix").getD (.text "power_supply_metrics")
    qos
    retain
    keepalive }

def LogSettings.ofSection (b : Option Block) : Except SettingsError LogSettings := do
  let level ← textSetting b "level" "info"
  let fileLevel ← textSetting b "file_level" "debug"
  let fileMaxSize ← wholeSetting b "file_max_size" 10
  let fileKeep ← wholeSetting b "file_keep" 5
  return {
    level
    file := setting? b "file"
    fileLevel
    fileMaxSize
    fileKeep
    colors := ((setting? b "colors").map Scalar.isSet).getD true
    format := (setting? b "format").getD (.text defaultLogFormat) }

/-- Collection settings of a section. The pattern is only checked here. -/
def SupplySettings.ofSection (b : Option Block) : Except SettingsError SupplySettings := do
  let ignoredDevices ← textSetting b "ignored_devices" defaultIgnoredDevices
  let _ ← (Pattern.ofText ignoredDevices).mapError (SettingsError.badPattern ignoredDevices)
  let updateInterval ← match setting? b "update_interval" with
    | none => pure (Binary64.ofInt 15)
    | some v => v.toReal.mapError SettingsError.badNumber
  if updateInterval.le .zero then throw (.badInterval updateInterval)
  let sysfs ← textSetting b "sysfs" "/sys"
  let namespace_ ← textSetting b "namespace" "node"
  return {
    name := match b.bind (·.label) with
      | some label => if label.isEmpty then "power_supply" else label
      | none => "power_supply"
    sysfs
    namespace_
    ignoredDevices
    updateInterval }

def Settings.ofDocument (d : Document) : Except SettingsError Settings := do
  let mqtt ← MqttSettings.ofSection (d.block? "mqtt")
  let logging ← LogSettings.ofSection (d.block? "logging")
  let supply ← SupplySettings.ofSection (d.block? "power_supply")
  return { mqtt, logging, supply }

end SupplyGauge.Config
