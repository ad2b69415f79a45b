import QueryResult.Proofs.Buffer.FailedFinalization
import QueryResult.Proofs.Session.Contexts

/-!
# Rows that are not looked at

As long as a distinct result is not finalized its rows are in its index, and the
rows that its store may have nevertheless are not looked at. Every action gives
the same answer in two sessions that differ in such rows only, and leaves two
sessions of this kind.
-/

set_option autoImplicit false

namespace QueryResult

/-! ## Holdings side by side -/

namespace Holdings

variable {left right : Holdings}

/-- The holdings differ at most in rows that are not looked at. -/
structure SameButRows (left right : Holdings) : Prop where
  buffers : left.buffers = right.buffers
  loads : ∀ name buffer context, right.buffers name = some buffer →
    (left.load buffer context).SameButRows (right.load buffer context)

/-- A buffer and its store are replaced. If anyone shares the store, it is replaced alike. -/
theorem SameButRows.put (same : SameButRows left right) (name : String)
    {leftState rightState : ResultState} (states : leftState.SameButRows rightState)
    (alike : ∀ other buffer, other ≠ name → right.buffers other = some buffer →
      buffer.store = rightState.buffer.store → leftState = rightState) :
    SameButRows (left.put name leftState) (right.put name rightState) where
  buffers := by
    rw [Holdings.put, Holdings.put, same.buffers, states.buffer_eq]
  loads := by
    intro other buffer context held
    rcases update_eq_some held with ⟨rfl, isOwn⟩ | ⟨different, present⟩
    · cases isOwn
      have leftStore : (left.put other leftState).stores rightState.buffer.store =
          leftState.store := by
        rw [← states.buffer_eq]
        exact left.put_stores_self other leftState
      rw [load, load, leftStore, put_stores_self]
      exact states.anyContext context
    · by_cases sharing : buffer.store = rightState.buffer.store
      · -- Who shares the store gets the new one too, which is the same on both sides.
        have equal := alike other buffer different present sharing
        subst equal
        refine .inl ?_
        rw [load, load, sharing, put_stores_self, put_stores_self]
      · have leftUnshared : buffer.store ≠ leftState.buffer.store := states.buffer_eq ▸ sharing
        rw [load, load, put_stores_other left name leftUnshared,
          put_stores_other right name sharing]
        exact same.loads other buffer context present

theorem SameButRows.destroy (same : SameButRows left right) (name : String) :
    SameButRows { left with buffers := Function.update left.buffers name none }
      { right with buffers := Function.update right.buffers name none } where
  buffers := congrArg (Function.update · name none) same.buffers
  loads := by
    intro other buffer context held
    rcases update_eq_some held with ⟨_, isNone⟩ | ⟨_, present⟩
    · cases isNone
    · exact same.loads other buffer context present

theorem SameButRows.follow (same : SameButRows left right) (leftOrderly : left.Orderly)
    (rightOrderly : right.Orderly) (source : String) (content : Bytes) :
    SameButRows (left.follow source content) (right.follow source content) where
  buffers := by
    rw [Holdings.follow, Holdings.follow, same.buffers]
  loads := by
    intro name buffer context held
    have leftHeld : (left.follow source content).buffers name = some buffer := by
      rw [Holdings.follow, same.buffers]
      exact held
    obtain ⟨present, rightStore⟩ := rightOrderly.follow held
    rw [load, load, (leftOrderly.follow leftHeld).2, rightStore]
    exact same.loads name buffer context present

/-- A buffer that keeps its store is replaced, with the store unless that is frozen. -/
theorem SameButRows.replace (same : SameButRows left right) (orderly : right.Orderly)
    {name : String} {buffer : Buffer} (held : right.buffers name = some buffer)
    {leftState rightState : ResultState} (states : leftState.SameButRows rightState)
    (number : rightState.buffer.store = buffer.store)
    (unchanged : (right.stores buffer.store).frozen = true →
      rightState.store = right.stores buffer.store) :
    SameButRows (left.put name leftState) (right.put name rightState) := by
  refine same.put name states fun other otherBuffer different otherHeld sharing => ?_
  have shared : otherBuffer.store = buffer.store := sharing.trans number
  have frozen := orderly.shared other name otherBuffer buffer different otherHeld held shared
  rw [shared] at frozen
  refine states.eq_of_frozen ?_
  rw [unchanged frozen]
  exact frozen

end Holdings

/-! ## Sessions side by side -/

namespace Session

variable {session left right : Session} {stores : Table Nat RowStore}

def withStores (stores : Table Nat RowStore) (session : Session) : Session :=
  { session with stores := stores }

/-- The sessions differ at most in their row stores. -/
def SameButStores (left right : Session) : Prop :=
  ∃ stores, left = right.withStores stores

theorem SameButStores.saveContext (same : SameButStores left right) (owner : Option String)
    (context : Option Context) :
    SameButStores (left.saveContext owner context) (right.saveContext owner context) := by
  obtain ⟨stores, rfl⟩ := same
  refine ⟨stores, ?_⟩
  cases owner <;> cases context <;> rfl

theorem SameButStores.closeBuffer (same : SameButStores left right) (name : String) :
    SameButStores (left.closeBuffer name) (right.closeBuffer name) := by
  have sameContext : ∀ buffer, (left.load buffer).close.state.context =
      (right.load buffer).close.state.context := by
    obtain ⟨stores, rfl⟩ := same
    intro buffer
    have sameClosed : ((right.withStores stores).load buffer).buffer.closed =
        (right.load buffer).buffer.closed := rfl
    simp only [ResultState.close, sameClosed]
    split <;> rfl
  have sameBuffers : left.buffers = right.buffers := by
    obtain ⟨stores, rfl⟩ := same
    rfl
  simp only [Session.closeBuffer, sameBuffers, sameContext]
  split
  · exact same
  · exact same.saveContext _ _

theorem SameButStores.install (same : SameButStores left right) (name : String)
    (buffer : Buffer) : SameButStores (left.install name buffer) (right.install name buffer) := by
  obtain ⟨stores, closed⟩ := same.closeBuffer name
  refine ⟨stores, ?_⟩
  rw [Session.install, closed]
  rfl

theorem SameButStores.addStore (same : SameButStores left right) (store : RowStore) :
    SameButStores
      { left with
        stores := left.stores.insert left.nextStore store
        nextStore := left.nextStore + 1 }
      { right with
        stores := right.stores.insert right.nextStore store
        nextStore := right.nextStore + 1 } := by
  obtain ⟨stores, rfl⟩ := same
  exact ⟨_, rfl⟩

theorem SameButStores.concludeReading (same : SameButStores left right)
    {first second : Outcome ResultState.Transfer Unit} (sameAnswer : first.answer = second.answer)
    (sameTarget : first.state.target = second.state.target)
    (sameSource : first.state.source.buffer = second.state.source.buffer) (name source : String)
    (owner : Option String) :
    (left.concludeReading name source owner first).answer =
        (right.concludeReading name source owner second).answer ∧
      SameButStores (left.concludeReading name source owner first).state
        (right.concludeReading name source owner second).state := by
  obtain ⟨stores, rfl⟩ := same
  have moved : SameButStores
      { right.withStores stores with
        buffers := right.buffers.insert source second.state.source.buffer }
      { right with buffers := right.buffers.insert source second.state.source.buffer } :=
    ⟨stores, rfl⟩
  simp only [Session.concludeReading, sameAnswer, sameTarget, sameSource]
  cases second.answer with
  | error fault => exact ⟨rfl, moved.saveContext owner _⟩
  | ok _ => exact ⟨rfl, .install (.addStore (moved.saveContext owner _) _) name _⟩

theorem step_withStores {action : Action} (unchanging : action.changesHoldings = false) :
    (session.withStores stores).step action =
      (session.step action).mapState (withStores stores) := by
  have sameContexts : (session.withStores stores).contexts = session.contexts := rfl
  have sameIndexes : (session.withStores stores).indexes = session.indexes := rfl
  have sameSettings : (session.withStores stores).settings = session.settings := rfl
  cases action with
  | setSource | openBuffer | readBuffer | copyBuffer | destroy | command => cases unchanging
  | openContext context threshold =>
      simp only [step, openContext, sameContexts, sameSettings]
      split
      · rfl
      · split <;> rfl
  | setContextThreshold context threshold =>
      simp only [step, onContext, sameContexts]
      split <;> rfl
  | registerObject context value =>
      simp only [step, sameContexts]
      split
      · rfl
      · split <;> rfl
  | releaseObject context handle =>
      simp only [step, onContext, sameContexts]
      split <;> rfl
  | putRow index row visible | removeRow index row visible | hasRow index row visible
  | findRow index row visible =>
      simp only [step, onIndex, sameIndexes]
      split
      · rfl
      · split <;> rfl
  | takeRows index =>
      simp only [step, sameIndexes]
      split <;> rfl
  | _ => rfl

/-- The sessions differ at most in rows that are not looked at. -/
structure SameButRows (left right : Session) : Prop where
  others : left.SameButStores right
  holdings : left.holdings.SameButRows right.holdings

/-- The answer is the same, and so is what is left up to rows that are not looked at. -/
def Agree (left right : Outcome Session Answer) : Prop :=
  left.answer = right.answer ∧ left.state.SameButRows right.state

theorem SameButRows.agree_unchanging (same : SameButRows left right) {action : Action}
    (unchanging : action.changesHoldings = false) : Agree (left.step action) (right.step action) := by
  have holdings := same.holdings
  rw [← left.holdings_step_of_not_changesHoldings unchanging,
    ← right.holdings_step_of_not_changesHoldings unchanging] at holdings
  obtain ⟨stores, rfl⟩ := same.others
  rw [step_withStores unchanging] at holdings ⊢
  exact ⟨rfl, ⟨stores, rfl⟩, holdings⟩

theorem SameButRows.agree_setSource (same : SameButRows left right)
    (leftOrderly : left.holdings.Orderly) (rightOrderly : right.holdings.Orderly) (source : String)
    (content : Bytes) :
    Agree (left.step (.setSource source content)) (right.step (.setSource source content)) := by
  refine ⟨rfl, ?_, ?_⟩
  · obtain ⟨stores, rfl⟩ := same.others
    exact ⟨_, rfl⟩
  · simp only [step, Outcome.accept, holdings_setSource]
    exact same.holdings.follow leftOrderly rightOrderly source content

theorem SameButRows.agree_openBuffer (same : SameButRows left right) (name : String)
    (schema : Option Schema) (visible : Nat) (owner : Option String) (threshold : Option UInt64) :
    Agree (left.step (.openBuffer name schema visible owner threshold))
      (right.step (.openBuffer name schema visible owner threshold)) := by
  obtain ⟨stores, rfl⟩ := same.others
  have sameCheck : (right.withStores stores).checkContext owner = right.checkContext owner := rfl
  simp only [step, openBuffer, sameCheck]
  split
  · exact ⟨rfl, same⟩
  split
  · exact ⟨rfl, same⟩
  · rename_i schema
    have put := same.holdings.put name
      (.refl (ResultState.opened owner schema visible
        (threshold.getD (right.inheritedThreshold owner)) right.nextStore none))
      fun _ _ _ _ _ => rfl
    refine ⟨rfl, .install (.addStore ⟨stores, rfl⟩ _) name _, ?_⟩
    simp only [Outcome.accept]
    rw [holdings_install, holdings_install, holdings_insertStore, holdings_insertStore]
    exact ⟨put.buffers, put.loads⟩

theorem SameButRows.held (same : SameButRows left right) (name : String) :
    left.buffers.get? name = right.buffers.get? name :=
  congrFun same.holdings.buffers name

theorem SameButRows.load {name : String} {buffer : Buffer} (same : SameButRows left right)
    (held : right.buffers.get? name = some buffer) :
    (left.load buffer).SameButRows (right.load buffer) := by
  have loads := same.holdings.loads name buffer (right.load buffer).context held
  obtain ⟨stores, rfl⟩ := same.others
  exact loads

theorem SameButRows.agree_copyBuffer (same : SameButRows left right) (name source : String)
    (owner : Option String) :
    Agree (left.step (.copyBuffer name source owner))
      (right.step (.copyBuffer name source owner)) := by
  have sameCheck : left.checkContext owner = right.checkContext owner := by
    obtain ⟨stores, rfl⟩ := same.others
    rfl
  simp only [step, copyBuffer, sameCheck, same.held source]
  split
  · exact ⟨rfl, same⟩
  split
  · exact ⟨rfl, same⟩
  rename_i buffer held
  cases finalized : buffer.finalized with
  | false =>
      have refused : ∀ session : Session, (session.load buffer).shallowCopy owner = none := by
        intro session
        refine if_neg fun copyable => ?_
        exact Bool.false_ne_true (finalized.symm.trans copyable.1)
      rw [refused left, refused right]
      exact ⟨rfl, same⟩
  | true =>
      -- All rows of a finalized buffer are looked at.
      rw [(same.load held).eq_of_finalized finalized]
      split
      · exact ⟨rfl, same⟩
      · rename_i frozen copy copied
        have number := (Holdings.shallowCopy_eq copied).2.2
        have put := same.holdings.put name (.refl ⟨copy, frozen.store, none⟩) fun _ _ _ _ _ => rfl
        obtain ⟨stores, rfl⟩ := same.others
        refine ⟨rfl, .install ?_ name _, ?_⟩
        · exact ⟨_, rfl⟩
        simp only [Outcome.accept]
        rw [holdings_install, holdings_install, holdings_insertStore, holdings_insertStore]
        simp only [Holdings.put, number] at put
        exact put

theorem SameButRows.agree_destroy (same : SameButRows left right) (name : String) :
    Agree (left.step (.destroy name)) (right.step (.destroy name)) := by
  simp only [step, destroy, same.held name]
  split
  · exact ⟨rfl, same⟩
  · have destroyed := same.holdings.destroy name
    rw [← holdings_erase, ← holdings_erase] at destroyed
    refine ⟨rfl, ?_, destroyed⟩
    obtain ⟨stores, closed⟩ := same.others.closeBuffer name
    simp only [Outcome.accept, closed]
    exact ⟨stores, rfl⟩

theorem SameButRows.readFrom (same : SameButRows left right) {name : String} {buffer : Buffer}
    (held : right.buffers.get? name = some buffer) (limit : UInt64) (owner : Option String) :
    (left.readFrom buffer limit owner).answer = (right.readFrom buffer limit owner).answer ∧
      (left.readFrom buffer limit owner).state.target =
        (right.readFrom buffer limit owner).state.target ∧
      (left.readFrom buffer limit owner).state.source.SameButRows
        (right.readFrom buffer limit owner).state.source := by
  have loads := same.load held
  obtain ⟨stores, rfl⟩ := same.others
  exact loads.readInto right.settings _ _

theorem SameButRows.agree_readBuffer (same : SameButRows left right)
    (orderly : right.holdings.Orderly) (name source : String) (limit : UInt64)
    (owner : Option String) :
    Agree (left.step (.readBuffer name source limit owner))
      (right.step (.readBuffer name source limit owner)) := by
  have sameCheck : left.checkContext owner = right.checkContext owner := by
    obtain ⟨stores, rfl⟩ := same.others
    rfl
  cases checked : right.checkContext owner with
  | error fault =>
      simp only [step, readBuffer, sameCheck, checked]
      exact ⟨rfl, same⟩
  | ok _ =>
      cases held : right.buffers.get? source with
      | none =>
          simp only [step, readBuffer, sameCheck, checked, same.held source, held]
          exact ⟨rfl, same⟩
      | some buffer =>
          obtain ⟨sameAnswer, sameTarget, sources⟩ := same.readFrom held limit owner
          obtain ⟨sameStore, number⟩ := right.store_readFrom buffer limit owner
          have moved := same.holdings.replace orderly held sources number fun _ => sameStore
          have made := moved.put name (.refl (right.readFrom buffer limit owner).state.target)
            fun _ _ _ _ _ => rfl
          have leftReaches := left.holdings_concludeReading name source buffer limit owner
          have rightReaches := right.holdings_concludeReading name source buffer limit owner
          rw [step, step, readBuffer_eq checked held,
            readBuffer_eq (sameCheck.trans checked) ((same.held source).trans held)]
          obtain ⟨answers, others⟩ := same.others.concludeReading sameAnswer sameTarget
            sources.buffer_eq name source owner
          refine ⟨answers, others, ?_⟩
          rw [leftReaches, rightReaches, sameAnswer, sameTarget]
          split
          · exact moved
          · exact ⟨made.buffers, made.loads⟩

theorem SameButRows.agree_command (same : SameButRows left right)
    (leftOrderly : left.holdings.Orderly) (orderly : right.holdings.Orderly) (name : String)
    (command : Command) :
    Agree (left.step (.command name command)) (right.step (.command name command)) := by
  have sameSettings : left.settings = right.settings := by
    obtain ⟨stores, rfl⟩ := same.others
    rfl
  cases held : right.buffers.get? name with
  | none =>
      simp only [step, onBuffer, same.held name, held]
      exact ⟨rfl, same⟩
  | some buffer =>
      have leftHeld := (same.held name).trans held
      have sound : (right.load buffer).Sound := orderly.sound name buffer _ held
      have leftSound : (left.load buffer).Sound := leftOrderly.sound name buffer _ leftHeld
      obtain ⟨sameAnswer, states⟩ := (same.load held).perform right.settings command
      refine ⟨?_, ?_, ?_⟩
      · rw [answer_command held, answer_command leftHeld, sameSettings]
        exact sameAnswer
      · simp only [step, onBuffer, held, leftHeld, sameSettings, save, checkOut, states.buffer_eq,
          states.context_eq]
        refine .saveContext ?_ _ _
        obtain ⟨stores, rfl⟩ := same.others
        exact ⟨_, rfl⟩
      · rw [step, step, onBuffer_holdings _ held sound, onBuffer_holdings _ leftHeld leftSound,
          sameSettings]
        refine same.holdings.replace orderly held states
          (sound.shape_perform right.settings command).2 fun frozen => ?_
        exact sound.store_perform frozen right.settings command

theorem SameButRows.step (same : SameButRows left right) (leftOrderly : left.holdings.Orderly)
    (orderly : right.holdings.Orderly) (action : Action) :
    Agree (left.step action) (right.step action) := by
  cases changes : action.changesHoldings with
  | false => exact same.agree_unchanging changes
  | true =>
      cases action with
      | setSource source content => exact same.agree_setSource leftOrderly orderly source content
      | openBuffer name schema visible owner threshold =>
          exact same.agree_openBuffer name schema visible owner threshold
      | readBuffer name source limit owner =>
          exact same.agree_readBuffer orderly name source limit owner
      | copyBuffer name source owner => exact same.agree_copyBuffer name source owner
      | destroy name => exact same.agree_destroy name
      | command name command => exact same.agree_command leftOrderly orderly name command
      | _ => cases changes

theorem SameButRows.stepAll (same : SameButRows left right) (leftOrderly : left.holdings.Orderly)
    (orderly : right.holdings.Orderly) (later : List Action) :
    (left.stepAll later).1 = (right.stepAll later).1 ∧
      SameButRows (left.stepAll later).2 (right.stepAll later).2 := by
  induction later generalizing left right with
  | nil => exact ⟨rfl, same⟩
  | cons action rest ih =>
      obtain ⟨answer, after⟩ := same.step leftOrderly orderly action
      obtain ⟨answers, final⟩ := ih after (orderly_stepAll leftOrderly [action])
        (orderly_stepAll orderly [action])
      refine ⟨?_, final⟩
      simp only [Session.stepAll, answer, answers]

/-! ## What can be told -/

/-- What can be seen of a buffer at any time: the buffer, and whether it has an index. -/
def shown (session : Session) (name : String) : Option (Buffer × Bool) :=
  (session.buffers.get? name).map fun buffer => (buffer, (session.load buffer).hasIndex)

/-- Whatever is done later, the answers and what can be seen of the buffers are the same. -/
def Indistinguishable (left right : Session) : Prop :=
  ∀ later : List Action, (left.stepAll later).1 = (right.stepAll later).1 ∧
    (left.stepAll later).2.shown = (right.stepAll later).2.shown

theorem SameButRows.shown_eq (same : SameButRows left right) : left.shown = right.shown := by
  funext name
  rw [shown, shown, same.held name]
  cases held : right.buffers.get? name with
  | none => rfl
  | some buffer => exact congrArg (fun has => some (buffer, has)) (same.load held).hasIndex_eq

theorem SameButRows.indistinguishable (same : SameButRows left right)
    (leftOrderly : left.holdings.Orderly) (orderly : right.holdings.Orderly) :
    left.Indistinguishable right := by
  intro later
  obtain ⟨answers, final⟩ := same.stepAll leftOrderly orderly later
  exact ⟨answers, final.shown_eq⟩

end Session

end QueryResult
