import V2G.Settings.Basic
import V2G.Settings.EnvFile
import V2G.Settings.Level
import V2G.Trace.Event

/-!
# Stations

The settings in force at a station, the level below which its records are dropped, and the
environment that settings are loaded from. Loading stores the settings once all values can
be read, and sets the level after that.
-/

namespace V2G

inductive LoadFault where
  /-- Variables whose values are no truth values. -/
  | notBoolean (names : List String)
  | unknownLevel (name : String)
  deriving DecidableEq

def LoadFault.message : LoadFault → String
  | .notBoolean names =>
    let entry (name : String) : String := Text.quoted name ++ ": ['Not a valid boolean.']"
    "Environment variables invalid: \x7b" ++ ", ".intercalate (names.map entry) ++ "\x7d"
  | .unknownLevel name => s!"Unknown level: {Text.quoted (Text.upper name)}"

structure Station where
  settings : Settings := {}
  level : Int := Level.fallback
  environment : Keyed String := []

namespace Station

def trueTexts : List String :=
  ["t", "T", "true", "True", "TRUE", "on", "On", "ON", "y", "Y", "yes", "Yes", "YES", "1"]

def falseTexts : List String :=
  ["f", "F", "false", "False", "FALSE", "off", "Off", "OFF", "n", "N", "no", "No", "NO", "0"]

/-- The truth value of a variable, or its default where it is not set. -/
def flag (environment : Keyed String) (name : String) (default : Bool) : Except String Bool :=
  match Keyed.get? environment name with
  | none => .ok default
  | some text =>
    if trueTexts.contains text then .ok true
    else if falseTexts.contains text then .ok false
    else .error name

def levelName : String := "LOG_LEVEL"
def documentsName : String := "MESSAGE_LOG_JSON"
def unknownName : String := "REJECT_UNKNOWN_FIELDS"

def variableNames : List String := [levelName, documentsName, unknownName]

/-- The settings that an environment holds. All unreadable values are reported together. -/
def readSettings (environment : Keyed String) : Except LoadFault Settings :=
  let logLevel := (Keyed.get? environment levelName).getD "INFO"
  match flag environment documentsName false, flag environment unknownName true with
  | .ok recordDocuments, .ok rejectUnknown => .ok { logLevel, recordDocuments, rejectUnknown }
  | .error a, .error b => .error (.notBoolean [a, b])
  | .error a, .ok _ => .error (.notBoolean [a])
  | .ok _, .error b => .error (.notBoolean [b])

/-- Sets the level by its name. -/
def setLevel (s : Station) (name : String) : Except LoadFault Station :=
  match Level.ofName? name with
  | some level => .ok { s with level }
  | none => .error (.unknownLevel name)

/-- Reads the settings from the environment and a file. What the file adds to the
environment stays there, whatever comes of it. -/
def load (s : Station) (file : String) : Station × Option LoadFault :=
  let s := { s with environment := EnvFile.extend s.environment file }
  match readSettings s.environment with
  | .error fault => (s, some fault)
  | .ok settings =>
    let s := { s with settings }
    match s.setLevel settings.logLevel with
    | .error fault => (s, some fault)
    | .ok s => (s, none)

/-- The records of events at the station's level. -/
def records (s : Station) (events : List Event) : List (Nat × String) :=
  (events.filterMap Event.record?).filter fun (level, _) => Level.effective s.level ≤ level

end Station

end V2G
