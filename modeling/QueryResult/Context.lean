import QueryResult.Event
import QueryResult.Value.Basic

/-!
# Execution contexts

A context sets the row threshold of the results made in it and keeps the large
objects that were copied for them. Each registration gets a handle of its own,
greater than all before it.
-/

set_option autoImplicit false

namespace QueryResult

/-- A row threshold and the registered large objects. -/
structure Context where
  threshold : UInt64
  nextHandle : Nat
  largeObjects : List (Nat × Value)
  deriving DecidableEq

namespace Context

/-- A context with nothing registered. The first handle is one. -/
def empty (threshold : UInt64) : Context := ⟨threshold, 1, []⟩

def liveCount (context : Context) : Nat :=
  context.largeObjects.length

def find? (context : Context) (handle : Nat) : Option Value :=
  (context.largeObjects.find? fun entry => decide (entry.1 = handle)).map Prod.snd

/-- Registers an object under the next handle. -/
def keep (context : Context) (value : Value) : Nat × Context :=
  (context.nextHandle,
    { context with
      nextHandle := context.nextHandle + 1
      largeObjects := context.largeObjects ++ [(context.nextHandle, value)] })

/-- Registers objects in order: the handles, the context afterwards, and the reports. -/
def keepAll (context : Context) : List Value → List Nat × Context × List Event
  | [] => ([], context, [])
  | value :: rest =>
      let kept := context.keep value
      let others := kept.2.keepAll rest
      (kept.1 :: others.1, others.2.1,
        .largeObjectRegistered kept.1 kept.2.liveCount :: others.2.2)

/-- Registers an object, which must be a large object. -/
def register (context : Context) (value : Value) : Except Fault (Nat × Context) :=
  if value.type.isLargeObject then .ok (context.keep value) else .error .notLargeObject

/-- Ends a registration. The answer is whether there was one. -/
def release (context : Context) (handle : Nat) : Bool × Context :=
  ((context.find? handle).isSome,
    { context with
      largeObjects := context.largeObjects.filter fun entry => decide (entry.1 ≠ handle) })

/-- Ends all registrations with the given handles. -/
def releaseAll (context : Context) (handles : List Nat) : Context :=
  handles.foldl (fun context handle => (context.release handle).2) context

/-- The context after the content of a source has changed. -/
def follow (source : String) (content : Bytes) (context : Context) : Context :=
  { context with
    largeObjects := context.largeObjects.map fun entry =>
      (entry.1, entry.2.follow source content) }

end Context

end QueryResult
