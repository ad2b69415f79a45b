import QueryResult.Buffer.Command
import QueryResult.Buffer.Transfer
import QueryResult.Session.Basic

/-!
# Making and destroying buffers

A new buffer takes the name it is made under from any earlier buffer, which is
destroyed as soon as the new one exists. Destroying a buffer closes it.
-/

set_option autoImplicit false

namespace QueryResult.Session

/-- Checks that a context exists, if one is named. -/
def checkContext (session : Session) (name : Option String) : Except Fault Unit :=
  match name with
  | none => .ok ()
  | some name =>
      match session.contexts.get? name with
      | some _ => .ok ()
      | none => .error (.missing .context)

/-- The row threshold of a buffer made in a context, if it is given none of its own. -/
def inheritedThreshold (session : Session) (context : Option String) : UInt64 :=
  match context.bind session.contexts.get? with
  | some found => found.threshold
  | none => Buffer.unbounded

/-- The session after the buffer of a name has been closed, if there is one. -/
def closeBuffer (session : Session) (name : String) : Session :=
  match session.buffers.get? name with
  | none => session
  | some buffer =>
      let closed := (session.load buffer).close
      session.saveContext buffer.context closed.state.context

/-- Gives a name to a new buffer and destroys the one that had it. -/
def install (session : Session) (name : String) (buffer : Buffer) : Session :=
  let closed := session.closeBuffer name
  { closed with buffers := closed.buffers.insert name buffer }

def destroy (session : Session) (name : String) : Outcome Session Answer :=
  match session.buffers.get? name with
  | none => .refuse (.missing .buffer) session
  | some _ =>
      let closed := session.closeBuffer name
      .accept .done { closed with buffers := closed.buffers.erase name } []

def openBuffer (session : Session) (name : String) (schema : Option Schema) (visible : Nat)
    (context : Option String) (threshold : Option UInt64) : Outcome Session Answer :=
  match session.checkContext context with
  | .error fault => .refuse fault session
  | .ok _ =>
      match schema with
      | none => .refuse .schemaMissing session
      | some schema =>
          let limit := threshold.getD (session.inheritedThreshold context)
          let buffer := Buffer.empty context schema visible limit session.nextStore
          let stored :=
            { session with
              stores := session.stores.insert session.nextStore .empty
              nextStore := session.nextStore + 1 }
          .accept (.threshold limit) (stored.install name buffer) []

/-- Makes a finalized buffer of the rows ahead of the cursor of another one, at most `limit` of
them unless `limit` is zero. If a row is refused there is no new buffer, but the cursor of the
source has moved. -/
def readBuffer (session : Session) (name source : String) (limit : UInt64)
    (context : Option String) : Outcome Session Answer :=
  match session.checkContext context with
  | .error fault => .refuse fault session
  | .ok _ =>
      match session.buffers.get? source with
      | none => .refuse (.missing .buffer) session
      | some sourceBuffer =>
          let target : ResultState :=
            { buffer :=
                Buffer.empty context sourceBuffer.schema sourceBuffer.visible
                  (session.inheritedThreshold context) session.nextStore
              store := .empty
              context := context.bind session.contexts.get? }
          let sourceState := session.load sourceBuffer
          let finished :=
            (ResultState.transfer (sourceState.attempts limit) ⟨sourceState, target⟩).andThen
              fun _ pair =>
                let finalized := pair.target.finalize session.settings
                ⟨finalized.answer, { pair with target := finalized.state }, finalized.events⟩
          let moved :=
            { session with
              buffers := session.buffers.insert source finished.state.source.buffer }
          match finished.answer with
          | .error fault =>
              let closed := finished.state.target.close
              ⟨.error fault, moved.saveContext context closed.state.context, finished.events⟩
          | .ok _ =>
              let made := finished.state.target
              let saved := moved.saveContext context made.context
              let stored :=
                { saved with
                  stores := saved.stores.insert saved.nextStore made.store
                  nextStore := saved.nextStore + 1 }
              ⟨.ok (.threshold made.buffer.threshold), stored.install name made.buffer,
                finished.events⟩

/-- Makes a shallow copy of a finalized buffer. Nothing happens if it cannot be copied. -/
def copyBuffer (session : Session) (name source : String) (context : Option String) :
    Outcome Session Answer :=
  match session.checkContext context with
  | .error fault => .refuse fault session
  | .ok _ =>
      match session.buffers.get? source with
      | none => .refuse (.missing .buffer) session
      | some sourceBuffer =>
          match (session.load sourceBuffer).shallowCopy context with
          | none => .accept .notCopyable session []
          | some (frozen, copy) =>
              let shared :=
                { session with stores := session.stores.insert sourceBuffer.store frozen.store }
              .accept (.threshold copy.threshold) (shared.install name copy) []

end QueryResult.Session
