import QueryResult.Answer
import QueryResult.Buffer.Basic
import QueryResult.Table

/-!
# Sessions

A session holds everything that operations can name: settings, the logger,
sources of linked large objects, contexts, free-standing content indexes, and
buffers with the row stores they share. Row stores have numbers that are never
given out twice; a store stays in the session after its last buffer is gone.
-/

set_option autoImplicit false

namespace QueryResult

structure Session where
  settings : Settings
  logging : Logging
  sources : Table String Bytes
  contexts : Table String Context
  indexes : Table String ContentIndex
  stores : Table Nat RowStore
  nextStore : Nat
  buffers : Table String Buffer

namespace Session

def initial : Session :=
  { settings := .initial
    logging := .initial
    sources := .empty
    contexts := .empty
    indexes := .empty
    stores := .empty
    nextStore := 0
    buffers := .empty }

def storeOf (session : Session) (number : Nat) : RowStore :=
  (session.stores.get? number).getD .empty

def load (session : Session) (buffer : Buffer) : ResultState :=
  { buffer := buffer
    store := session.storeOf buffer.store
    context := buffer.context.bind session.contexts.get? }

/-- The session in which a context has changed, if there is one. -/
def saveContext (session : Session) (name : Option String) (context : Option Context) :
    Session :=
  match name, context with
  | some name, some context => { session with contexts := session.contexts.insert name context }
  | _, _ => session

/-- The session in which a buffer, its row store and its context are as in `state`. -/
def save (session : Session) (name : String) (state : ResultState) : Session :=
  saveContext
    { session with
      buffers := session.buffers.insert name state.buffer
      stores := session.stores.insert state.buffer.store state.store }
    state.buffer.context state.context

/-- A buffer with its row store and its context, and the session without the rows of the store.
Rows are changed in place as long as no one else holds them, so the session gives them away
while they are worked on; `save` gives them back. -/
@[noinline] def checkOut (session : Session) (buffer : Buffer) : ResultState × Session :=
  (session.load buffer, { session with stores := session.stores.insert buffer.store .empty })

def onBuffer (session : Session) (name : String)
    (operation : ResultState → Outcome ResultState Answer) : Outcome Session Answer :=
  match session.buffers.get? name with
  | none => .refuse (.missing .buffer) session
  | some buffer =>
      match session.checkOut buffer with
      | (state, others) =>
          let outcome := operation state
          ⟨outcome.answer, others.save name outcome.state, outcome.events⟩

def state? (session : Session) (name : String) : Option ResultState :=
  (session.buffers.get? name).map session.load

/-- A large object linked to a source, with the present content of the source. -/
def linkedValue (session : Session) (kind : LargeObjectKind) (source : String) :
    Except Fault Value :=
  match session.sources.get? source with
  | some content => .ok (.largeObject kind content (.linked source))
  | none => .error (.missing .source)

/-- The session after a source has got new content, which every linked value now shows. -/
def setSource (session : Session) (source : String) (content : Bytes) : Session :=
  { session with
    sources := session.sources.insert source content
    contexts := session.contexts.map (Context.follow source content)
    indexes := session.indexes.map (ContentIndex.follow source content)
    stores := session.stores.map (RowStore.follow source content)
    buffers := session.buffers.map (Buffer.follow source content) }

end Session

end QueryResult
