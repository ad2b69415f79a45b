import Mathlib.Logic.Function.Basic
import Mathlib.Logic.Relation
import QueryResult.Proofs.Buffer.Membership
import QueryResult.Session.Action

/-!
# Holdings

Of a session, its holdings are the buffers and the row stores they share. They
change in few ways: commands are carried out on a buffer, a new buffer is made
or copied from another one, a buffer goes, or a source changes.
-/

set_option autoImplicit false

namespace QueryResult

/-- The buffers and row stores of a session. -/
structure Holdings where
  stores : Nat → RowStore
  buffers : String → Option Buffer
  nextStore : Nat

namespace Holdings

/-- A buffer with its row store, in the given context. -/
def load (holdings : Holdings) (buffer : Buffer) (context : Option Context) : ResultState :=
  ⟨buffer, holdings.stores buffer.store, context⟩

/-- The holdings in which a buffer and its row store are as in `state`. -/
def put (holdings : Holdings) (name : String) (state : ResultState) : Holdings :=
  { holdings with
    stores := Function.update holdings.stores state.buffer.store state.store
    buffers := Function.update holdings.buffers name (some state.buffer) }

theorem put_stores_self (holdings : Holdings) (name : String) (state : ResultState) :
    (holdings.put name state).stores state.buffer.store = state.store :=
  Function.update_self _ _ _

theorem put_stores_other (holdings : Holdings) (name : String) {state : ResultState} {number : Nat}
    (different : number ≠ state.buffer.store) :
    (holdings.put name state).stores number = holdings.stores number :=
  Function.update_of_ne different _ _

theorem put_buffers_self (holdings : Holdings) (name : String) (state : ResultState) :
    (holdings.put name state).buffers name = some state.buffer :=
  Function.update_self _ _ _

theorem put_load (holdings : Holdings) {name : String} {buffer : Buffer}
    (held : holdings.buffers name = some buffer) (context : Option Context) :
    holdings.put name (holdings.load buffer context) = holdings := by
  have sameStores : Function.update holdings.stores buffer.store (holdings.stores buffer.store) =
      holdings.stores := Function.update_eq_self _ _
  have sameBuffers : Function.update holdings.buffers name (some buffer) = holdings.buffers := by
    rw [← held]
    exact Function.update_eq_self _ _
  simp only [put, load, sameStores, sameBuffers]

/-- The holdings after the content of a source has changed. -/
def follow (source : String) (content : Bytes) (holdings : Holdings) : Holdings :=
  { holdings with
    stores := fun number => (holdings.stores number).follow source content
    buffers := fun name => (holdings.buffers name).map (Buffer.follow source content) }

/-- The changes of holdings. Questions are asked of the buffers of some stores only. -/
inductive Step (mayAsk : Nat → Prop) (holdings : Holdings) : Holdings → Prop
  | followed (source : String) (content : Bytes) :
      Step mayAsk holdings (holdings.follow source content)
  | performed (name : String) (buffer : Buffer) (context : Option Context) (settings : Settings)
      (commands : List Command) (held : holdings.buffers name = some buffer)
      (allowed : ∀ command ∈ commands, command.probes = true → mayAsk buffer.store) :
      Step mayAsk holdings
        (holdings.put name ((holdings.load buffer context).performAll settings commands).2)
  | made (name : String) (owner : Option String) (schema : Schema) (visible : Nat)
      (threshold : UInt64) (context : Option Context) (settings : Settings)
      (commands : List Command) (silent : ∀ command ∈ commands, command.probes = false) :
      Step mayAsk holdings
        { holdings.put name
            ((ResultState.opened owner schema visible threshold holdings.nextStore
              context).performAll settings commands).2 with
          nextStore := holdings.nextStore + 1 }
  | copied (name source : String) (buffer copy : Buffer) (context : Option Context)
      (owner : Option String) (frozen : ResultState) (held : holdings.buffers source = some buffer)
      (copied : (holdings.load buffer context).shallowCopy owner = some (frozen, copy)) :
      Step mayAsk holdings
        { holdings with
          stores := Function.update holdings.stores buffer.store frozen.store
          buffers := Function.update holdings.buffers name (some copy) }
  | destroyed (name : String) :
      Step mayAsk holdings
        { holdings with buffers := Function.update holdings.buffers name none }

end Holdings

/-- The action can change buffers or row stores. -/
def Action.changesHoldings : Action → Bool
  | .setSource .. | .openBuffer .. | .readBuffer .. | .copyBuffer .. | .destroy _ | .command .. =>
      true
  | _ => false

theorem Table.get?_insert {κ α : Type} [DecidableEq κ] (table : Table κ α) (name : κ) (object : α) :
    (table.insert name object).get? = Function.update table.get? name (some object) := by
  funext other
  by_cases same : other = name
  · subst same
    rw [Function.update_self, get?_insert_self]
  · rw [Function.update_of_ne same, get?_insert_other _ _ (Ne.symm same)]

theorem Table.insert_of_get? {κ α : Type} [DecidableEq κ] {table : Table κ α} {name : κ}
    {object : α} (held : table.get? name = some object) : table.insert name object = table := by
  obtain ⟨entries⟩ := table
  simp only [insert, Table.mk.injEq]
  unfold get? at held
  induction entries with
  | nil => cases held
  | cons entry rest ih =>
      by_cases same : entry.1 = name
      · simp only [same, decide_true, List.find?_cons_of_pos, Option.map_some,
          Option.some.injEq] at held
        rw [insertEntry, if_pos same, ← held]
      · simp only [same, decide_false, Bool.false_eq_true, not_false_eq_true,
          List.find?_cons_of_neg] at held
        rw [insertEntry, if_neg same, ih held]

theorem Table.get?_erase {κ α : Type} [DecidableEq κ] (table : Table κ α) (name : κ) :
    (table.erase name).get? = Function.update table.get? name none := by
  funext other
  by_cases same : other = name
  · subst same
    rw [Function.update_self, get?_erase_self]
  · rw [Function.update_of_ne same, get?_erase_other _ (Ne.symm same)]

namespace Session

variable {session : Session}

/-- The holdings of a session. -/
def holdings (session : Session) : Holdings :=
  ⟨session.storeOf, session.buffers.get?, session.nextStore⟩

theorem storeOf_insert (session : Session) (number nextStore : Nat) (store : RowStore) :
    storeOf
        { session with
          stores := session.stores.insert number store
          nextStore := nextStore } =
      Function.update session.storeOf number store := by
  funext other
  unfold storeOf
  rw [Table.get?_insert]
  by_cases same : other = number
  · subst same
    rw [Function.update_self, Function.update_self, Option.getD_some]
  · rw [Function.update_of_ne same, Function.update_of_ne same]

theorem holdings_insertStore (session : Session) (number nextStore : Nat) (store : RowStore) :
    holdings
        { session with
          stores := session.stores.insert number store
          nextStore := nextStore } =
      { session.holdings with
        stores := Function.update session.holdings.stores number store
        nextStore := nextStore } :=
  congrArg (Holdings.mk · _ _) (session.storeOf_insert number nextStore store)

theorem holdings_saveContext (session : Session) (name : Option String)
    (context : Option Context) : (session.saveContext name context).holdings = session.holdings := by
  cases name <;> cases context <;> rfl

theorem holdings_closeBuffer (session : Session) (name : String) :
    (session.closeBuffer name).holdings = session.holdings := by
  unfold closeBuffer
  split
  · rfl
  · exact holdings_saveContext _ _ _

theorem storeOf_setSource (session : Session) (source : String) (content : Bytes)
    (number : Nat) :
    (session.setSource source content).storeOf number =
      (session.storeOf number).follow source content := by
  unfold storeOf setSource
  rw [Table.get?_map]
  cases session.stores.get? number with
  | none => simp [RowStore.follow, RowStore.empty]
  | some store => rfl

theorem holdings_setSource (session : Session) (source : String) (content : Bytes) :
    (session.setSource source content).holdings = session.holdings.follow source content := by
  have sameStores : (session.setSource source content).storeOf =
      fun number => (session.storeOf number).follow source content :=
    funext (session.storeOf_setSource source content)
  have sameBuffers : (session.setSource source content).buffers.get? =
      fun name => (session.buffers.get? name).map (Buffer.follow source content) :=
    funext fun name => Table.get?_map session.buffers _ name
  rw [holdings, sameStores, sameBuffers]
  rfl

theorem holdings_install (session : Session) (name : String) (buffer : Buffer) :
    (session.install name buffer).holdings =
      { session.holdings with
        buffers := Function.update session.holdings.buffers name (some buffer) } := by
  rw [← holdings_closeBuffer session name]
  unfold install holdings
  rw [Table.get?_insert]
  rfl

theorem holdings_erase (session : Session) (name : String) :
    holdings
        { session.closeBuffer name with
          buffers := (session.closeBuffer name).buffers.erase name } =
      { session.holdings with
        buffers := Function.update session.holdings.buffers name none } := by
  rw [← holdings_closeBuffer session name]
  exact congrArg (Holdings.mk _ · _) (Table.get?_erase _ name)

theorem holdings_save (session : Session) (name : String) (state : ResultState) :
    (session.save name state).holdings = session.holdings.put name state := by
  have inserted : holdings
        { session with
          buffers := session.buffers.insert name state.buffer
          stores := session.stores.insert state.buffer.store state.store } = _ :=
    holdings_insertStore { session with buffers := session.buffers.insert name state.buffer }
      state.buffer.store session.nextStore state.store
  rw [save, holdings_saveContext, inserted]
  exact congrArg (Holdings.mk _ · _) (session.buffers.get?_insert name state.buffer)

theorem holdings_insertBuffer (session : Session) (name : String) {state : ResultState}
    (sameStore : state.store = session.storeOf state.buffer.store) :
    holdings { session with buffers := session.buffers.insert name state.buffer } =
      session.holdings.put name state := by
  have unchanged : Function.update session.holdings.stores state.buffer.store state.store =
      session.holdings.stores := by
    rw [sameStore]
    exact Function.update_eq_self _ _
  rw [Holdings.put, unchanged]
  exact congrArg (Holdings.mk _ · _) (session.buffers.get?_insert name state.buffer)

theorem holdings_save_checkOut (session : Session) (name : String) (buffer : Buffer)
    {state : ResultState} (same : state.buffer.store = buffer.store) :
    ((session.checkOut buffer).2.save name state).holdings = session.holdings.put name state := by
  have emptied : (session.checkOut buffer).2.holdings =
      { session.holdings with
        stores := Function.update session.holdings.stores buffer.store .empty } :=
    session.holdings_insertStore buffer.store session.nextStore .empty
  rw [holdings_save, emptied, Holdings.put, same]
  exact congrArg (Holdings.mk · _ _) (same ▸ Function.update_idem _ _ _)

end Session

end QueryResult
