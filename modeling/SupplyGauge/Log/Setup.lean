import SupplyGauge.Config.Settings
import SupplyGauge.Log.Entry
/-! # Logging setups

A setup says what is logged where. It comes from the logging section of the
settings, or from options of the command line that take over the file of the
section when they name none.
-/

namespace SupplyGauge.Log

/-- Octets in a megabyte. -/
def megabyte : Int := 1024 * 1024

/-- What is logged where. Severities are words, to be understood when the setup is used. -/
structure Setup where
  consoleLevel : String := "INFO"
  consoleColors : Bool := true
  fileEnabled : Bool := false
  filePath : Config.Scalar := .text "/var/log/power-supply-metrics/power-supply-metrics.log"
  fileLevel : String := "DEBUG"
  fileLimit : Int := 10 * megabyte
  fileKeep : Int := 5
  format : Config.Scalar := .text Config.defaultLogFormat
  dateFormat : String := "%Y-%m-%d %H:%M:%S"
  componentLevels : Option (List (String × String)) := none

/-- The file of a logging section, if it names one. -/
def logFile? (s : Config.LogSettings) : Option Config.Scalar := s.file.filter (·.isSet)

def Setup.ofSettings (s : Config.LogSettings) : Setup :=
  let setup : Setup := {
    consoleLevel := s.level
    consoleColors := s.colors
    fileLevel := s.fileLevel
    fileLimit := s.fileMaxSize * megabyte
    fileKeep := s.fileKeep
    format := s.format }
  match logFile? s with
  | some path => { setup with fileEnabled := true, filePath := path }
  | none => setup

/-- Takes over the file of a logging section unless the setup has one. -/
def Setup.withFileOf (setup : Setup) (s : Config.LogSettings) : Setup :=
  match logFile? s with
  | some path =>
    if setup.fileEnabled then setup
    else { setup with
      fileEnabled := true
      filePath := path
      fileLevel := s.fileLevel
      fileLimit := s.fileMaxSize * megabyte
      fileKeep := s.fileKeep }
  | none => setup

/-- The severity that a word stands for in any letter case. -/
def Severity.ofWord (word : String) : Severity := ofLowerWord (Text.lowerAscii word)

end SupplyGauge.Log
