import QueryResult.Session.Buffers

/-!
# Actions on a session

Every operation on a session as data. `Session.step` carries out one action;
`Session.log` says which lines it leaves in the log.
-/

set_option autoImplicit false

namespace QueryResult

inductive Action
  /-- Reads a setting as a kind; without a name, one that does not exist. -/
  | readSetting (name : Option SettingName) (kind : SettingKind)
  | setSetting (name : SettingName) (value : SettingValue)
  | resetSettings
  | startLogging
  | setLogLevel (level : LogLevel)
  | unregisterLogger
  | uninstallLogger
  /-- Makes a source or changes its content. -/
  | setSource (source : String) (content : Bytes)
  | openContext (context : String) (threshold : Option UInt64)
  | setContextThreshold (context : String) (threshold : UInt64)
  | registerObject (context : String) (value : Value)
  | releaseObject (context : String) (handle : Nat)
  | makeIndex (index : String)
  | putRow (index : String) (row : Row) (visible : Option Nat)
  | removeRow (index : String) (row : Row) (visible : Option Nat)
  | hasRow (index : String) (row : Row) (visible : Option Nat)
  | findRow (index : String) (row : Row) (visible : Option Nat)
  | takeRows (index : String)
  | openBuffer (buffer : String) (schema : Option Schema) (visible : Nat)
      (context : Option String) (threshold : Option UInt64)
  | readBuffer (buffer source : String) (limit : UInt64) (context : Option String)
  | copyBuffer (buffer source : String) (context : Option String)
  | destroy (buffer : String)
  | command (buffer : String) (command : Command)
  deriving DecidableEq

namespace Session

def onContext (session : Session) (name : String)
    (operation : Context → Except Fault (Answer × Context)) : Outcome Session Answer :=
  match session.contexts.get? name with
  | none => .refuse (.missing .context) session
  | some context =>
      match operation context with
      | .error fault => .refuse fault session
      | .ok (answer, changed) =>
          .accept answer { session with contexts := session.contexts.insert name changed } []

/-- Carries out an operation with the key of a row on the index of a name. -/
def onIndex (session : Session) (name : String) (row : Row) (visible : Option Nat)
    (operation : RowKey → ContentIndex → Answer × ContentIndex) : Outcome Session Answer :=
  match session.indexes.get? name with
  | none => .refuse (.missing .index) session
  | some index =>
      match RowKey.ofRow? row visible with
      | .error fault => .refuse fault session
      | .ok key =>
          let result := operation key index
          .accept result.1 { session with indexes := session.indexes.insert name result.2 } []

/-- Reads a setting, which must exist, as a kind. -/
def readSetting (session : Session) (name : Option SettingName) (kind : SettingKind) :
    Except Fault Answer :=
  match name with
  | none => .error .unknownSetting
  | some name => (session.settings.read name kind).map Answer.setting

/-- Makes a context with a threshold of its own or with the one the settings name. -/
def openContext (session : Session) (name : String) (threshold : Option UInt64) :
    Outcome Session Answer :=
  match session.contexts.get? name with
  | some _ => .refuse .contextExists session
  | none =>
      let chosen : Except Fault UInt64 :=
        match threshold with
        | some rows => .ok rows
        | none => session.settings.rowThreshold
      match chosen with
      | .error fault => .refuse fault session
      | .ok rows =>
          .accept (.threshold rows)
            { session with contexts := session.contexts.insert name (Context.empty rows) } []

/-- Starts logging at the level that the settings name. -/
def startLogging (session : Session) : Outcome Session Answer :=
  let started := session.logging.start (session.settings.text .logLevel)
  ⟨started.1.map Answer.logger, { session with logging := started.2 }, []⟩

def step (session : Session) : Action → Outcome Session Answer
  | .readSetting name kind => ⟨session.readSetting name kind, session, []⟩
  | .setSetting name value =>
      .accept .done { session with settings := session.settings.set name value } []
  | .resetSettings => .accept .done { session with settings := .initial } []
  | .startLogging => session.startLogging
  | .setLogLevel level =>
      .accept .done { session with logging := session.logging.setLevel level } []
  | .unregisterLogger => .accept .done { session with logging := session.logging.unregister } []
  | .uninstallLogger => .accept .done { session with logging := session.logging.uninstall } []
  | .setSource source content => .accept .done (session.setSource source content) []
  | .openContext context threshold => session.openContext context threshold
  | .setContextThreshold context threshold =>
      session.onContext context fun found =>
        .ok (.threshold threshold, { found with threshold := threshold })
  | .registerObject context value =>
      match session.contexts.get? context with
      | none => .refuse (.missing .context) session
      | some found =>
          match found.register value with
          | .error fault => .refuse fault session
          | .ok (handle, changed) =>
              .accept (.handle handle)
                { session with contexts := session.contexts.insert context changed }
                [.largeObjectRegistered handle changed.liveCount]
  | .releaseObject context handle =>
      session.onContext context fun found =>
        let released := found.release handle
        .ok (.flag released.1, released.2)
  | .makeIndex index =>
      .accept .done { session with indexes := session.indexes.insert index .empty } []
  | .putRow index row visible =>
      session.onIndex index row visible fun key found =>
        let result := found.insert key row
        (.flag result.1, result.2)
  | .removeRow index row visible =>
      session.onIndex index row visible fun key found =>
        let result := found.erase key
        (.flag result.1, result.2)
  | .hasRow index row visible =>
      session.onIndex index row visible fun key found => (.flag (found.contains key), found)
  | .findRow index row visible =>
      session.onIndex index row visible fun key found => (.row (found.find? key), found)
  | .takeRows index =>
      match session.indexes.get? index with
      | none => .refuse (.missing .index) session
      | some found =>
          let taken := found.removeAll
          .accept (.rows taken.1)
            { session with indexes := session.indexes.insert index taken.2 } []
  | .openBuffer buffer schema visible context threshold =>
      session.openBuffer buffer schema visible context threshold
  | .readBuffer buffer source limit context => session.readBuffer buffer source limit context
  | .copyBuffer buffer source context => session.copyBuffer buffer source context
  | .destroy buffer => session.destroy buffer
  | .command buffer command =>
      session.onBuffer buffer (ResultState.perform session.settings command)

/-- Carries out actions in order, whether or not some of them are refused: the answers, and the
session in the end. -/
def stepAll : List Action → Session → List (Except Fault Answer) × Session
  | [], session => ([], session)
  | action :: rest, session =>
      let outcome := session.step action
      let others := stepAll rest outcome.state
      (outcome.answer :: others.1, others.2)

/-- The lines that an outcome leaves in the log. -/
def log (outcome : Outcome Session Answer) : List (LogLevel × String) :=
  outcome.state.logging.lines outcome.allEvents

end Session

end QueryResult
