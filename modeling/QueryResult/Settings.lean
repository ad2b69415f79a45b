import QueryResult.Fault

/-!
# Settings

Three named settings, each of which can hold a value of any kind. Reading a
setting as a kind that it does not hold is a fault.
-/

set_option autoImplicit false

namespace QueryResult

/-- The value of a setting. Floating-point values are held as their bit patterns. -/
inductive SettingValue
  | flag (truth : Bool)
  | integer (number : Int64)
  | real (bits : UInt64)
  | text (content : String)
  deriving DecidableEq, Repr

inductive SettingKind
  | flag
  | integer
  | real
  | text
  deriving DecidableEq, Repr

def SettingValue.kind : SettingValue → SettingKind
  | .flag _ => .flag
  | .integer _ => .integer
  | .real _ => .real
  | .text _ => .text

inductive SettingName
  /-- The number of rows that one result may hold in memory. -/
  | maxMemoryRows
  /-- The number of rows from which a result is sorted in parallel. -/
  | parallelSortMinRows
  /-- The name of the level at which a new logger starts. -/
  | logLevel
  deriving DecidableEq, Repr

def SettingName.all : List SettingName :=
  [.maxMemoryRows, .parallelSortMinRows, .logLevel]

structure Settings where
  maxMemoryRows : SettingValue
  parallelSortMinRows : SettingValue
  logLevel : SettingValue
  deriving DecidableEq, Repr

namespace Settings

/-- The settings with which a session starts. -/
def initial : Settings :=
  ⟨.integer 40000, .integer 10000, .text "info"⟩

def get (settings : Settings) : SettingName → SettingValue
  | .maxMemoryRows => settings.maxMemoryRows
  | .parallelSortMinRows => settings.parallelSortMinRows
  | .logLevel => settings.logLevel

def set (settings : Settings) (name : SettingName) (value : SettingValue) : Settings :=
  match name with
  | .maxMemoryRows => { settings with maxMemoryRows := value }
  | .parallelSortMinRows => { settings with parallelSortMinRows := value }
  | .logLevel => { settings with logLevel := value }

/-- The value of a setting that must hold the given kind. -/
def read (settings : Settings) (name : SettingName) (kind : SettingKind) :
    Except Fault SettingValue :=
  if (settings.get name).kind = kind then .ok (settings.get name) else .error .settingKind

def integer (settings : Settings) (name : SettingName) : Except Fault Int64 :=
  match settings.get name with
  | .integer number => .ok number
  | _ => .error .settingKind

def text (settings : Settings) (name : SettingName) : Except Fault String :=
  match settings.get name with
  | .text content => .ok content
  | _ => .error .settingKind

/-- The row threshold of a context that is given none of its own: the setting, or zero if that
is negative. -/
def rowThreshold (settings : Settings) : Except Fault UInt64 := do
  let rows ← settings.integer .maxMemoryRows
  return if rows < 0 then 0 else rows.toUInt64

end Settings

end QueryResult
