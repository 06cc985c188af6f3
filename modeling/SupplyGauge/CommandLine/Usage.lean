import SupplyGauge.CommandLine.Options
/-! # Texts of the command line

The program's name and version, and the texts that explain its options, for a
terminal of eighty columns.
-/

namespace SupplyGauge.CommandLine

def programName : String := "power-supply-metrics"

def versionText : String := "0.1.0"

/-- Settings that are used unless the command line names others. -/
def defaultConfigPath : String := "/etc/power-supply-metrics/config.conf"

/-- Lines, each ended by a line feed. -/
def lines (all : List String) : String := String.join (all.map (· ++ "\n"))

def usage : String := lines [
  "usage: power-supply-metrics [-h] [-v] [-d] [-q] [--log-file PATH] [--no-color]",
  "                            [--validate] [--once] [--version]",
  "                            [config]"]

def help : String := usage ++ lines [
  "",
  "Linux power supply telemetry exporter via MQTT",
  "",
  "positional arguments:",
  "  config           Path to configuration file (default: /etc/power-supply-",
  "                   metrics/config.conf)",
  "",
  "options:",
  "  -h, --help       show this help message and exit",
  "  -v, --verbose    Enable verbose logging (INFO level)",
  "  -d, --debug      Enable debug logging (DEBUG level)",
  "  -q, --quiet      Quiet mode (only errors)",
  "  --log-file PATH  Write logs to file",
  "  --no-color       Disable colored output",
  "  --validate       Validate configuration and exit",
  "  --once           Collect once, print records to stdout and exit (no MQTT)",
  "  --version        show program's version number and exit"]

def version : String := lines [s!"{programName} {versionText}"]

/-- What is said about a command line that cannot be understood. -/
def UsageError.report (e : UsageError) : String :=
  usage ++ lines [s!"{programName}: error: {e.message}"]

end SupplyGauge.CommandLine
