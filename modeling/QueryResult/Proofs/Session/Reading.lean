import Mathlib.Algebra.GroupWithZero.Nat
import QueryResult.Proofs.Buffer.Reading
import QueryResult.Proofs.Session.Environment
import QueryResult.Proofs.Session.Threshold

/-!
# Reading one buffer into another

A new buffer gets the rows ahead of the cursor of a finalized one, as many as
were asked for, and the cursor moves on behind them. What one reading leaves,
the next one finds: consecutive readings divide the rows among them. No reading
registers a large object, for the rows of a result depend on no source.
-/

set_option autoImplicit false

namespace QueryResult

theorem Holdings.kept_bounded (mayAsk : Nat → Prop) (fresh : Nat) :
    Kept mayAsk fresh fun state => state.buffer.rowCount ≤ Buffer.unbounded.toNat where
  anyContext := fun _ _ bounded => bounded
  performed := fun state settings command sound _ bounded =>
    have below : state.buffer.threshold.toNat ≤ Buffer.unbounded.toNat :=
      Nat.le_of_lt_succ state.buffer.threshold.toNat_lt
    sound.perform_rowCount_le bounded below settings command
  opened := fun _ _ _ _ _ => Nat.zero_le _
  shared := fun _ _ _ bounded => bounded
  copied := by
    intro state owner frozen copy context _ bounded copied
    unfold ResultState.shallowCopy at copied
    split at copied
    · cases copied
      exact bounded
    · cases copied

namespace Session

variable {session : Session} {name source : String} {buffer : Buffer} {limit : UInt64}
  {owner : Option String}

theorem bounded_stepAll (actions : List Action) :
    (initial.stepAll actions).2.holdings.Each fun state =>
      state.buffer.rowCount ≤ Buffer.unbounded.toNat :=
  (stepAll_each orderly_initial (fun fresh _ => Holdings.kept_bounded (fun _ => True) fresh)
    (fun _ _ _ held => by cases held) (asksOnly_any actions initial)).2

/-! ## One reading -/

/-- The buffer that a reading makes, with its rows. -/
def readState (session : Session) (buffer : Buffer) (limit : UInt64) (owner : Option String) :
    ResultState :=
  ((ResultState.opened owner buffer.schema buffer.visible (session.inheritedThreshold owner)
    session.nextStore (owner.bind session.contexts.get?)).extended
      ((session.load buffer).portion limit)).concluded

theorem readFrom_spec (orderly : session.holdings.Orderly) (positioned : buffer.Positioned)
    (held : session.buffers.get? source = some buffer) (finalized : buffer.finalized = true)
    (limit : UInt64) (owner : Option String) :
    ((session.load buffer).due limit ≤ (session.inheritedThreshold owner).toNat →
      ∃ current events, session.readFrom buffer limit owner =
        .accept ()
          ⟨(session.load buffer).placed ((session.load buffer).positionAfter limit) current,
            session.readState buffer limit owner⟩ events) ∧
    ((session.inheritedThreshold owner).toNat < (session.load buffer).due limit →
      (session.readFrom buffer limit owner).answer =
        .error (.overThreshold (session.inheritedThreshold owner))) := by
  have sound : (session.load buffer).Sound := orderly.sound source buffer _ held
  have ready : ResultState.Transfer.Ready ⟨session.load buffer,
      ResultState.opened owner buffer.schema buffer.visible (session.inheritedThreshold owner)
        session.nextStore (owner.bind session.contexts.get?)⟩ :=
    ⟨(orderly.unlinked source buffer _ held).rows, sound.wide,
      ResultState.taking_opened _ _ _ _ _ _, rfl⟩
  have reads := sound.readInto positioned finalized ready (Nat.zero_le _) limit session.settings
  have empty : ∀ count, (ResultState.opened owner buffer.schema buffer.visible
      (session.inheritedThreshold owner) session.nextStore
      (owner.bind session.contexts.get?)).store.rows.size + count = count := Nat.zero_add
  rwa [empty] at reads

theorem rows_readState (session : Session) (buffer : Buffer) (limit : UInt64)
    (owner : Option String) :
    (session.readState buffer limit owner).rows = (session.load buffer).portion limit := by
  simp [readState, ResultState.rows, ResultState.concluded, ResultState.extended,
    ResultState.opened, RowStore.empty]

/-- What a session comes to when a reading is not refused. -/
structure Read (session : Session) (name source : String) (buffer : Buffer) (limit : UInt64)
    (owner : Option String) (after : Session) : Prop where
  made : after.buffers.get? name = some (session.readState buffer limit owner).buffer
  moved : name ≠ source → ∃ current, after.buffers.get? source =
    some ((session.load buffer).placed ((session.load buffer).positionAfter limit) current).buffer
  rows : after.rowsOf session.nextStore = (session.load buffer).portion limit
  others : ∀ number, number ≠ session.nextStore → after.storeOf number = session.storeOf number

theorem readBuffer_accepted (orderly : session.holdings.Orderly) (positioned : buffer.Positioned)
    (held : session.buffers.get? source = some buffer) (finalized : buffer.finalized = true)
    (checked : session.checkContext owner = .ok ())
    (fits : (session.load buffer).due limit ≤ (session.inheritedThreshold owner).toNat)
    (name : String) :
    let read := session.step (.readBuffer name source limit owner)
    read.answer = .ok (.threshold (session.inheritedThreshold owner)) ∧
      session.Read name source buffer limit owner read.state := by
  intro read
  obtain ⟨current, events, accepted⟩ :=
    (readFrom_spec orderly positioned held finalized limit owner).1 fits
  have concluded : read = session.concludeReading name source owner
      (session.readFrom buffer limit owner) := readBuffer_eq checked held name limit
  have reached : read.state.holdings =
      { (session.holdings.put source ((session.load buffer).placed
            ((session.load buffer).positionAfter limit) current)).put name
          (session.readState buffer limit owner) with
        nextStore := session.nextStore + 1 } := by
    have reached := session.holdings_concludeReading name source buffer limit owner
    rwa [← concluded, accepted] at reached
  have moved := session.holdings_insertBuffer source
    (show ((session.load buffer).placed ((session.load buffer).positionAfter limit) current).store =
      session.storeOf buffer.store from rfl)
  refine ⟨by rw [concluded, accepted]; rfl, ?_, ?_, ?_, ?_⟩
  · exact (congrFun (congrArg Holdings.buffers reached) name).trans (Holdings.put_buffers_self _ _ _)
  · intro different
    refine ⟨current, (congrFun (congrArg Holdings.buffers reached) source).trans ?_⟩
    exact (Function.update_of_ne (Ne.symm different) _ _).trans (Holdings.put_buffers_self _ _ _)
  · have stored : read.state.storeOf session.nextStore =
        (session.readState buffer limit owner).store :=
      (congrFun (congrArg Holdings.stores reached) session.nextStore).trans
        (Holdings.put_stores_self _ name (session.readState buffer limit owner))
    rw [rowsOf, stored]
    exact session.rows_readState buffer limit owner
  · intro number different
    refine (congrFun (congrArg Holdings.stores reached) number).trans ?_
    refine (Holdings.put_stores_other _ name different).trans ?_
    exact congrFun (congrArg Holdings.stores moved.symm) number

/-- A reading of too many rows makes no buffer. Only the cursor of the source has moved. -/
theorem readBuffer_overThreshold (orderly : session.holdings.Orderly)
    (positioned : buffer.Positioned) (held : session.buffers.get? source = some buffer)
    (finalized : buffer.finalized = true) (checked : session.checkContext owner = .ok ())
    (tooMany : (session.inheritedThreshold owner).toNat < (session.load buffer).due limit)
    (name : String) :
    let read := session.step (.readBuffer name source limit owner)
    read.answer = .error (.overThreshold (session.inheritedThreshold owner)) ∧
      (∀ other, other ≠ source → read.state.buffers.get? other = session.buffers.get? other) ∧
      ∀ number, read.state.storeOf number = session.storeOf number := by
  intro read
  have refused := (readFrom_spec orderly positioned held finalized limit owner).2 tooMany
  have concluded : read = session.concludeReading name source owner
      (session.readFrom buffer limit owner) := readBuffer_eq checked held name limit
  have reached : read.state.holdings =
      session.holdings.put source (session.readFrom buffer limit owner).state.source := by
    have reached := session.holdings_concludeReading name source buffer limit owner
    rwa [← concluded, refused] at reached
  obtain ⟨sameStore, sameNumber⟩ := session.store_readFrom buffer limit owner
  have moved := session.holdings_insertBuffer source
    (sameStore.trans (congrArg session.storeOf sameNumber.symm))
  refine ⟨?_, fun other different => ?_, fun number => ?_⟩
  · rw [concluded, concludeReading, refused]
  · exact (congrFun (congrArg Holdings.buffers reached) other).trans
      (Function.update_of_ne different _ _)
  · exact (congrFun (congrArg Holdings.stores reached) number).trans
      (congrFun (congrArg Holdings.stores moved.symm) number)

/-! ## Contexts -/

theorem contexts_read (orderly : session.holdings.Orderly) (name source : String) (limit : UInt64)
    (owner : Option String) (context : String) :
    let read := session.step (.readBuffer name source limit owner)
    ((∃ threshold, read.answer = .ok (.threshold threshold)) →
      read.state.contexts.get? context =
        (session.contexts.get? context).map (session.closing name context)) ∧
    ((∃ fault, read.answer = .error fault) →
      read.state.contexts.get? context = session.contexts.get? context) := by
  intro read
  have making : session.Making name owner read := readBuffer_making orderly name source limit owner
  cases making with
  | failed answered contexts =>
      exact ⟨fun ⟨threshold, accepted⟩ => absurd accepted (answered threshold),
        fun _ => contexts context⟩
  | made threshold made answered new held contexts =>
      refine ⟨fun _ => contexts context, fun ⟨fault, refused⟩ => ?_⟩
      rw [answered] at refused
      cases refused

/-- Whether it is refused or not, a reading leaves the rows of the source, and of a context at most
what the buffer that had the name had registered is gone. -/
theorem readBuffer_keeps (orderly : session.holdings.Orderly) (positioned : buffer.Positioned)
    (held : session.buffers.get? source = some buffer) (finalized : buffer.finalized = true)
    (checked : session.checkContext owner = .ok ()) (limit : UInt64) (name : String) :
    let read := session.step (.readBuffer name source limit owner)
    read.state.rowsOf buffer.store = session.rowsOf buffer.store ∧
      ∀ context, read.state.contexts.get? context =
          (session.contexts.get? context).map (session.closing name context) ∨
        read.state.contexts.get? context = session.contexts.get? context := by
  intro read
  have contexts := contexts_read orderly name source limit owner
  rcases Nat.lt_or_ge (session.inheritedThreshold owner).toNat ((session.load buffer).due limit)
    with tooMany | fits
  · obtain ⟨answer, _, stores⟩ :=
      readBuffer_overThreshold orderly positioned held finalized checked tooMany name
    exact ⟨congrArg (fun store : RowStore => store.rows.toList) (stores buffer.store),
      fun context => .inr ((contexts context).2 ⟨_, answer⟩)⟩
  · obtain ⟨answer, _, _, _, stores⟩ :=
      readBuffer_accepted orderly positioned held finalized checked fits name
    have older : buffer.store ≠ session.nextStore :=
      Nat.ne_of_lt (orderly.numbered source buffer none held)
    exact ⟨congrArg (fun store : RowStore => store.rows.toList) (stores buffer.store older),
      fun context => .inl ((contexts context).1 ⟨_, answer⟩)⟩

/-! ## Consecutive readings -/

/-- A reading of at most `limit` rows into a new buffer. -/
structure Request where
  name : String
  limit : UInt64
  owner : Option String

def Request.action (source : String) (request : Request) : Action :=
  .readBuffer request.name source request.limit request.owner

/-- The rows of the buffer of a name. -/
def rowsUnder (session : Session) (name : String) : List Row :=
  match session.buffers.get? name with
  | some buffer => session.rowsOf buffer.store
  | none => []

theorem rowsUnder_of_held (held : session.buffers.get? name = some buffer) :
    session.rowsUnder name = session.rowsOf buffer.store := by
  simp only [rowsUnder, held]

/-- What consecutive readings of one source get, each told when it is done. -/
def gathered (source : String) : List Request → Session → List (List Row)
  | [], _ => []
  | request :: rest, session =>
      let after := (session.step (request.action source)).state
      after.rowsUnder request.name :: gathered source rest after

/-- The rows divided into consecutive parts of the given sizes, as far as they go. -/
def chunks : List Nat → List Row → List (List Row)
  | [], _ => []
  | size :: rest, rows => rows.take size :: chunks rest (rows.drop size)

theorem flatten_chunks (sizes : List Nat) (rows : List Row) :
    (chunks sizes rows).flatten = rows.take sizes.sum := by
  induction sizes generalizing rows with
  | nil => rfl
  | cons size rest ih => rw [chunks, List.flatten_cons, ih, List.sum_cons, List.take_add]

/-- The source is finalized and open, and the rest is ahead of its cursor. -/
structure Offers (session : Session) (source : String) (rest : List Row) : Prop where
  orderly : session.holdings.Orderly
  positioned : session.holdings.Each fun state => state.buffer.Positioned
  held : ∃ buffer, session.buffers.get? source = some buffer ∧ buffer.finalized = true ∧
    buffer.closed = false ∧ (session.load buffer).ahead = rest

theorem Offers.read {rest : List Row} (offers : session.Offers source rest) {request : Request}
    (elsewhere : request.name ≠ source) (limited : request.limit ≠ 0)
    (checked : session.checkContext request.owner = .ok ())
    (fits : (rest.take request.limit.toNat).length ≤
      (session.inheritedThreshold request.owner).toNat) :
    let read := session.step (request.action source)
    read.answer = .ok (.threshold (session.inheritedThreshold request.owner)) ∧
      read.state.rowsUnder request.name = rest.take request.limit.toNat ∧
      read.state.Offers source (rest.drop request.limit.toNat) ∧
      ∀ owner, read.state.inheritedThreshold owner = session.inheritedThreshold owner ∧
        read.state.checkContext owner = session.checkContext owner := by
  intro read
  obtain ⟨orderly, eachPositioned, buffer, held, finalized, isOpen, ahead⟩ := offers
  have positioned : buffer.Positioned := eachPositioned source buffer none held
  have isOpen : (session.load buffer).buffer.closed = false := isOpen
  have portion : (session.load buffer).portion request.limit = rest.take request.limit.toNat := by
    rw [ResultState.portion_of_limited isOpen limited, ahead]
  rw [← portion, ResultState.length_portion] at fits
  obtain ⟨answer, made, moved, rows, others⟩ :=
    readBuffer_accepted orderly positioned held finalized checked fits request.name
  obtain ⟨current, stillHeld⟩ := moved elsewhere
  have older : buffer.store ≠ session.nextStore :=
    Nat.ne_of_lt (orderly.numbered source buffer none held)
  have left : (read.state.load ((session.load buffer).placed
      ((session.load buffer).positionAfter request.limit) current).buffer).ahead =
        rest.drop request.limit.toNat := by
    rw [← ahead, ← ResultState.ahead_placed isOpen positioned limited current]
    exact congrArg (fun store : RowStore => ((store.rows.toList.map (List.take buffer.visible)).drop
      ((session.load buffer).positionAfter request.limit + 1).toNat)) (others _ older)
  obtain ⟨stillOrderly, stillPositioned⟩ := stepAll_each orderly
    (fun fresh _ => Holdings.kept_positioned (fun _ => True) fresh) eachPositioned
    (asksOnly_any [request.action source] session)
  have alike : read.state.thresholds = session.thresholds := thresholds_step orderly rfl
  exact ⟨answer, (rowsUnder_of_held made).trans (rows.trans portion),
    ⟨stillOrderly, stillPositioned, _, stillHeld, finalized, isOpen, left⟩,
    fun owner => ⟨inheritedThreshold_of_thresholds alike owner,
      checkContext_of_thresholds alike owner⟩⟩

/-- Consecutive readings divide the rows ahead of the cursor among them. -/
theorem Offers.readAll {rest : List Row} (offers : session.Offers source rest)
    {requests : List Request}
    (admissible : ∀ request ∈ requests, request.name ≠ source ∧ request.limit ≠ 0 ∧
      session.checkContext request.owner = .ok ())
    (fits : List.Forall₂
      (fun request chunk => chunk.length ≤ (session.inheritedThreshold request.owner).toNat)
      requests (chunks (requests.map fun request => request.limit.toNat) rest)) :
    (session.stepAll (requests.map (Request.action source))).1 =
        requests.map (fun request => .ok (.threshold (session.inheritedThreshold request.owner))) ∧
      session.gathered source requests =
        chunks (requests.map fun request => request.limit.toNat) rest := by
  induction requests generalizing session rest with
  | nil => exact ⟨rfl, rfl⟩
  | cons request others ih =>
      obtain ⟨firstFits, othersFit⟩ := List.forall₂_cons.mp fits
      obtain ⟨elsewhere, limited, checked⟩ := admissible request List.mem_cons_self
      obtain ⟨answer, rows, stillOffers, alike⟩ :=
        offers.read elsewhere limited checked firstFits
      have thresholds := fun owner => (alike owner).1
      have stillAdmissible : ∀ other ∈ others, other.name ≠ source ∧ other.limit ≠ 0 ∧
          (session.step (request.action source)).state.checkContext other.owner = .ok () := by
        intro other listed
        rw [(alike other.owner).2]
        exact admissible other (.tail _ listed)
      have rest := ih stillOffers stillAdmissible (by simpa only [thresholds] using othersFit)
      simp only [thresholds] at rest
      obtain ⟨answers, chunks⟩ := rest
      simp only [List.map_cons, stepAll, gathered, Session.chunks]
      rw [answer, answers, rows, chunks]
      exact ⟨rfl, rfl⟩

theorem offers_rewound (orderly : session.holdings.Orderly)
    (positioned : session.holdings.Each fun state => state.buffer.Positioned)
    (held : session.buffers.get? source = some buffer) (finalized : buffer.finalized = true)
    (isOpen : buffer.closed = false) :
    (session.step (.command source .rewind)).state.Offers source
      ((session.rowsOf buffer.store).map (List.take buffer.visible)) := by
  obtain ⟨stillOrderly, stillPositioned⟩ := stepAll_each orderly
    (fun fresh _ => Holdings.kept_positioned (fun _ => True) fresh) positioned
    (asksOnly_any [.command source .rewind] session)
  have stillHeld : (session.step (.command source .rewind)).state.buffers.get? source =
      some buffer.rewound := buffers_onBuffer_self orderly held .rewind
  have sameStore : (session.step (.command source .rewind)).state.storeOf buffer.store =
      session.storeOf buffer.store := storeOf_onBuffer_self orderly held .rewind
  refine ⟨stillOrderly, stillPositioned, buffer.rewound, stillHeld, finalized, isOpen, ?_⟩
  exact congrArg (fun store : RowStore => store.rows.toList.map (List.take buffer.visible)) sameStore

/-! ## Every session -/

theorem portion_eq (session : Session) (buffer : Buffer) (limit : UInt64) :
    (session.load buffer).portion limit =
      (((session.rowsOf buffer.store).drop (buffer.position + 1).toNat).take
        ((session.load buffer).due limit)).map (List.take buffer.visible) := by
  rw [List.map_take, List.map_drop]
  rfl

theorem due_le_length (session : Session) (buffer : Buffer) (limit : UInt64) :
    (session.load buffer).due limit ≤ (session.rowsOf buffer.store).length := by
  refine ((session.load buffer).due_le_remaining limit).trans ?_
  unfold ResultState.remaining
  split
  · exact Nat.zero_le _
  · exact Nat.sub_le _ _

/-- In every session, reading a finalized buffer makes a finalized buffer of the visible columns of
the rows ahead of its cursor, as many as were asked for, and the cursor comes to stand on the last
of them, or behind all rows if they were not as many. If they are more than the threshold allows the
reading is refused, and it is never refused without a context. Contexts stay as they are, but for
what the buffer that had the name had registered, and so do the rows of the source. Consecutive
readings of a source that is open, from its first row on, divide its rows into consecutive parts. -/
theorem reading_drains_rows (actions : List Action) (source : String) (buffer : Buffer)
    (held : (initial.stepAll actions).2.buffers.get? source = some buffer)
    (finalized : buffer.finalized = true) :
    let session := (initial.stepAll actions).2
    let rows := session.rowsOf buffer.store
    let ahead := if buffer.closed then 0 else rows.length - (buffer.position + 1).toNat
    (-1 ≤ buffer.position ∧ buffer.position ≤ rows.length) ∧
    (∀ (name : String) (limit : UInt64) (owner : Option String),
      session.checkContext owner = .ok () →
        let read := session.step (.readBuffer name source limit owner)
        let threshold := session.inheritedThreshold owner
        let count := if limit = 0 then ahead else min limit.toNat ahead
        (count ≤ threshold.toNat →
          read.answer = .ok (.threshold threshold) ∧
          (∃ made, read.state.buffers.get? name = some made ∧ made.finalized = true ∧
            made.closed = false ∧ made.position = -1 ∧ made.visible = buffer.visible ∧
            made.schema = buffer.schema ∧
            read.state.rowsOf made.store =
              ((rows.drop (buffer.position + 1).toNat).take count).map
                (List.take buffer.visible)) ∧
          (name ≠ source → buffer.closed = false →
            ∃ after, read.state.buffers.get? source = some after ∧
              after.position =
                if limit ≠ 0 ∧ limit.toNat = count then buffer.position + count
                else rows.length) ∧
          ∀ context, read.state.contexts.get? context =
            (session.contexts.get? context).map (session.closing name context)) ∧
        (threshold.toNat < count →
          read.answer = .error (.overThreshold threshold) ∧
          (∀ other, other ≠ source →
            read.state.buffers.get? other = session.buffers.get? other) ∧
          ∀ context, read.state.contexts.get? context = session.contexts.get? context) ∧
        (owner = none → count ≤ threshold.toNat) ∧
        (session.buffers.get? name = none →
          ∀ context, read.state.contexts.get? context = session.contexts.get? context) ∧
        read.state.rowsOf buffer.store = rows) ∧
    (buffer.closed = false →
      ∀ requests : List Request,
        let rewound := (session.step (.command source .rewind)).state
        let limits := requests.map fun request => request.limit.toNat
        let projected := rows.map (List.take buffer.visible)
        (∀ request ∈ requests, request.name ≠ source ∧ request.limit ≠ 0 ∧
          rewound.checkContext request.owner = .ok ()) →
        List.Forall₂
          (fun request chunk => chunk.length ≤ (rewound.inheritedThreshold request.owner).toNat)
          requests (chunks limits projected) →
        (rewound.stepAll (requests.map (Request.action source))).1 =
            requests.map (fun request =>
              .ok (.threshold (rewound.inheritedThreshold request.owner))) ∧
          rewound.gathered source requests = chunks limits projected ∧
          (rewound.gathered source requests).flatten = projected.take limits.sum) := by
  intro session rows ahead
  have orderly : session.holdings.Orderly := orderly_stepAll orderly_initial actions
  have eachPositioned := positioned_stepAll actions
  have positioned : buffer.Positioned := eachPositioned source buffer none held
  have sound : (session.load buffer).Sound := orderly.sound source buffer _ held
  have counted : buffer.rowCount = rows.length := sound.counted finalized
  have bounded : buffer.rowCount ≤ Buffer.unbounded.toNat :=
    bounded_stepAll actions source buffer none held
  refine ⟨⟨positioned.low, counted ▸ positioned.high⟩, ?_, fun isOpen requests => ?_⟩
  · intro name limit owner checked read threshold count
    have contexts := contexts_read orderly name source limit owner
    refine ⟨fun fits => ?_, fun tooMany => ?_, ?_, fun missing context => ?_, ?_⟩
    · obtain ⟨answer, made, moved, stored, _⟩ :=
        readBuffer_accepted orderly positioned held finalized checked fits name
      refine ⟨answer, ⟨_, made, rfl, rfl, rfl, rfl, rfl, stored.trans (session.portion_eq _ _)⟩,
        fun different isOpen => ?_, fun context => (contexts context).1 ⟨_, answer⟩⟩
      obtain ⟨current, after⟩ := moved different
      exact ⟨_, after, if_neg (isOpen ▸ Bool.false_ne_true)⟩
    · obtain ⟨answer, others, _⟩ :=
        readBuffer_overThreshold orderly positioned held finalized checked tooMany name
      exact ⟨answer, others, fun context => (contexts context).2 ⟨_, answer⟩⟩
    · rintro rfl
      have withinRows : count ≤ rows.length := due_le_length session buffer limit
      exact withinRows.trans (counted ▸ bounded)
    · have kept := (readBuffer_keeps orderly positioned held finalized checked limit name).2 context
      rwa [closing_eq_id missing, Option.map_id, id, or_self] at kept
    · exact (readBuffer_keeps orderly positioned held finalized checked limit name).1
  · intro rewound limits projected admissible fits
    obtain ⟨answers, gathered⟩ :=
      (offers_rewound orderly eachPositioned held finalized isOpen).readAll admissible fits
    exact ⟨answers, gathered, by rw [gathered, flatten_chunks]⟩

theorem reading_drains_rows_sample :
    let actions : List Action :=
      [.openContext "main" (some 2), .openBuffer "result" (some ⟨[]⟩) 1 none none,
        .command "result" (.add [.integer 1]), .command "result" (.add [.integer 2, .boolean true]),
        .command "result" (.add [.integer 3]), .command "result" .finalize,
        .command "result" .next]
    let session := (initial.stepAll actions).2
    let rewound := (session.step (.command "result" .rewind)).state
    (session.step (.readBuffer "rest" "result" 0 (some "main"))).answer = .ok (.threshold 2) ∧
      rewound.gathered "result" [⟨"first", 2, some "main"⟩, ⟨"second", 2, none⟩] =
        [[[.integer 1], [.integer 2]], [[.integer 3]]] := by
  intro actions session rewound
  have state : (session.buffers.get? "result").map
      (fun buffer => (buffer.finalized, buffer.closed, buffer.visible, buffer.position,
        buffer.store)) = some (true, false, 1, 0, 0) := by decide +kernel
  have rows : session.rowsOf 0 = [[.integer 1], [.integer 2, .boolean true], [.integer 3]] := by
    decide +kernel
  obtain ⟨buffer, held, fields⟩ := Option.map_eq_some_iff.mp state
  simp only [Prod.mk.injEq] at fields
  obtain ⟨finalized, isOpen, visible, position, number⟩ := fields
  obtain ⟨_, single, consecutive⟩ := reading_drains_rows actions "result" buffer held finalized
  have threshold : session.inheritedThreshold (some "main") = 2 := by decide +kernel
  have accepted := (single "rest" 0 (some "main") (by decide +kernel)).1
  have divided := consecutive isOpen [⟨"first", 2, some "main"⟩, ⟨"second", 2, none⟩]
  dsimp only at accepted divided
  rw [number, rows] at accepted divided
  rw [isOpen, position, threshold] at accepted
  rw [visible] at divided
  refine ⟨(accepted (by decide)).1, (divided (by decide +kernel) ?_).2.1⟩
  decide +kernel

end Session

end QueryResult
