import QueryResult.Proofs.Session.Contexts

/-!
# Handles

A context gives out the numbers from one on as handles, one after the other,
whoever registers objects with it. A handle that was given out once does not
come back: the objects that are registered in a run have handles that no object
had before.
-/

set_option autoImplicit false

namespace QueryResult

theorem range'_between {first between last : Nat} (lower : first ≤ between)
    (upper : between ≤ last) :
    List.range' first (between - first) ++ List.range' between (last - between) =
      List.range' first (last - first) := by
  have joined :=
    List.range'_append_1 (s := first) (m := between - first) (n := last - between)
  rwa [Nat.add_sub_cancel' lower, show between - first + (last - between) = last - first by
    omega] at joined

namespace Context

variable {context after : Context} {handle : Nat}

/-- The handles of the registered objects. -/
def handles (context : Context) : List Nat :=
  context.largeObjects.map Prod.fst

/-- Every live handle has been given out, and no handle is there twice. -/
structure Numbered (context : Context) : Prop where
  positive : 1 ≤ context.nextHandle
  listed : context.handles.Sublist (List.range' 1 (context.nextHandle - 1))

theorem handles_registering (values : List Value) (context : Context) :
    (context.registering values).handles =
      context.handles ++ List.range' context.nextHandle values.length := by
  simp [handles, registering, List.map_fst_zip]

theorem handles_without (ended : List Nat) (context : Context) :
    (context.without ended).handles =
      context.handles.filter fun handle => decide (handle ∉ ended) := by
  simp only [handles, without, List.filter_map]
  rfl

theorem handles_follow (source : String) (content : Bytes) (context : Context) :
    (context.follow source content).handles = context.handles := by
  simp [handles, follow]

theorem Numbered.lt (numbered : context.Numbered) (live : handle ∈ context.handles) :
    handle < context.nextHandle := by
  have given := numbered.listed.mem live
  have positive := numbered.positive
  rw [List.mem_range'_1] at given
  omega

/-- What a change of a context makes of its handles: some of the live ones can go, and then the
next ones can come. -/
theorem Change.handles_eq (change : context.Change after) :
    context.nextHandle ≤ after.nextHandle ∧
      ∃ kept, kept.Sublist context.handles ∧
        after.handles =
          kept ++ List.range' context.nextHandle (after.nextHandle - context.nextHandle) := by
  cases change with
  | kept => exact ⟨Nat.le_refl _, context.handles, .refl _, by simp⟩
  | limited threshold => exact ⟨Nat.le_refl _, context.handles, .refl _, by simp [handles]⟩
  | registered values =>
      refine ⟨Nat.le_add_right _ _, context.handles, .refl _, ?_⟩
      rw [handles_registering]
      simp [registering]
  | released ended =>
      refine ⟨Nat.le_refl _, (context.without ended).handles, ?_, by simp [without]⟩
      rw [handles_without]
      exact List.filter_sublist
  | followed source content =>
      refine ⟨Nat.le_refl _, context.handles, .refl _, ?_⟩
      rw [handles_follow]
      simp [follow]

theorem Change.numbered (change : context.Change after) (numbered : context.Numbered) :
    after.Numbered := by
  obtain ⟨later, kept, fewer, handles⟩ := change.handles_eq
  have positive := numbered.positive
  refine ⟨by omega, ?_⟩
  rw [handles, ← range'_between positive later]
  exact (fewer.trans numbered.listed).append (.refl _)

end Context

namespace Session

variable {session : Session} {name context : String} {buffer : Buffer} {action : Action}

/-- The handles of the objects that are registered with the context of a name. -/
def liveHandles (session : Session) (context : String) : List Nat :=
  (session.contexts.get? context).elim [] Context.handles

/-- The handle that the context of a name gives out next. -/
def nextHandle (session : Session) (context : String) : Nat :=
  (session.contexts.get? context).elim 1 Context.nextHandle

/-- What holds of every session: its buffers and row stores are orderly, and the handles in its
contexts are numbered. -/
structure WellKept (session : Session) : Prop where
  orderly : session.holdings.Orderly
  numbered : ∀ name context, session.contexts.get? name = some context → context.Numbered

theorem wellKept_initial : initial.WellKept where
  orderly := orderly_initial
  numbered := fun _ _ held => by cases held

theorem WellKept.after (wellKept : session.WellKept) (action : Action) :
    (session.step action).state.WellKept where
  orderly := orderly_stepAll wellKept.orderly [action]
  numbered := by
    intro name context held
    have step := contexts_step wellKept.orderly action name
    rw [held] at step
    generalize found : session.contexts.get? name = before at step
    cases step with
    | opened threshold => exact ⟨Nat.le_refl _, .refl _⟩
    | changed change => exact change.numbered (wellKept.numbered name _ found)

theorem WellKept.afterAll (wellKept : session.WellKept) (actions : List Action) :
    (session.stepAll actions).2.WellKept := by
  induction actions generalizing session with
  | nil => exact wellKept
  | cons action rest ih => exact ih (wellKept.after action)

theorem WellKept.lt (wellKept : session.WellKept) {handle : Nat}
    (live : handle ∈ session.liveHandles context) : handle < session.nextHandle context := by
  unfold liveHandles at live
  unfold nextHandle
  cases found : session.contexts.get? context with
  | none => simp [found] at live
  | some own =>
      rw [found] at live
      exact (wellKept.numbered context own found).lt live

theorem WellKept.handles_eq (wellKept : session.WellKept) (action : Action) (context : String) :
    session.nextHandle context ≤ (session.step action).state.nextHandle context ∧
      ∃ kept, kept.Sublist (session.liveHandles context) ∧
        (session.step action).state.liveHandles context =
          kept ++ List.range' (session.nextHandle context)
            ((session.step action).state.nextHandle context - session.nextHandle context) := by
  have step := contexts_step wellKept.orderly action context
  unfold liveHandles nextHandle
  generalize session.contexts.get? context = before at step
  generalize (session.step action).state.contexts.get? context = after at step
  cases step with
  | absent => exact ⟨Nat.le_refl _, [], .refl _, rfl⟩
  | opened threshold => exact ⟨Nat.le_refl _, [], .refl _, rfl⟩
  | changed change => exact change.handles_eq

/-! ## Handing out handles -/

/-- The handles that an action gives out: those that are live after it and were not before. -/
def handsOut (session : Session) (action : Action) (context : String) : List Nat :=
  ((session.step action).state.liveHandles context).filter fun handle =>
    decide (handle ∉ session.liveHandles context)

/-- The handles that are given out in a run by the actions that count, which can depend on the
session in which they are carried out. -/
def handedOut (counts : Session → Action → Bool) (context : String) :
    List Action → Session → List Nat
  | [], _ => []
  | action :: rest, session =>
      (if counts session action then session.handsOut action context else []) ++
        handedOut counts context rest (session.step action).state

theorem WellKept.handsOut_eq (wellKept : session.WellKept) (action : Action) (context : String) :
    session.handsOut action context =
      List.range' (session.nextHandle context)
        ((session.step action).state.nextHandle context - session.nextHandle context) := by
  obtain ⟨_, kept, fewer, handles⟩ := wellKept.handles_eq action context
  -- The handles that were kept are none of the new ones, and the next ones were not live before.
  have old : kept.filter (fun handle => decide (handle ∉ session.liveHandles context)) = [] :=
    List.filter_eq_nil_iff.mpr fun handle listed => by simp [fewer.mem listed]
  rw [handsOut, handles, List.filter_append, old, List.nil_append]
  refine List.filter_eq_self.mpr fun handle new => decide_eq_true fun live => ?_
  have before := wellKept.lt live
  rw [List.mem_range'_1] at new
  omega

theorem WellKept.live_step (wellKept : session.WellKept) {handle : Nat}
    (live : handle ∈ (session.step action).state.liveHandles context) :
    handle ∈ session.liveHandles context ∨ session.nextHandle context ≤ handle := by
  obtain ⟨_, kept, fewer, handles⟩ := wellKept.handles_eq action context
  rw [handles, List.mem_append, List.mem_range'_1] at live
  rcases live with old | new
  · exact .inl (fewer.mem old)
  · exact .inr new.1

/-- Over a run, a context gives out one handle after the other. -/
theorem WellKept.handedOut_eq (wellKept : session.WellKept) (actions : List Action)
    (context : String) :
    session.nextHandle context ≤ (session.stepAll actions).2.nextHandle context ∧
      handedOut (fun _ _ => true) context actions session =
        List.range' (session.nextHandle context)
          ((session.stepAll actions).2.nextHandle context - session.nextHandle context) := by
  induction actions generalizing session with
  | nil =>
      refine ⟨Nat.le_refl _, ?_⟩
      rw [Session.stepAll, Nat.sub_self]
      rfl
  | cons action rest ih =>
      have first := (wellKept.handles_eq action context).1
      obtain ⟨later, others⟩ := ih (wellKept.after action)
      refine ⟨Nat.le_trans first later, ?_⟩
      rw [handedOut, if_pos rfl, others, wellKept.handsOut_eq action context]
      exact range'_between first later

/-! ## The registrations of a buffer -/

theorem nextHandle_closing (session : Session) (name context : String) (own : Context) :
    (session.closing name context own).nextHandle = own.nextHandle := by
  cases held : session.buffers.get? name with
  | none => rw [closing_eq_id held, id]
  | some buffer =>
      rw [closing_eq held]
      unfold Buffer.closing
      split <;> rfl

theorem load_context (isOwner : buffer.context = some context) :
    (session.load buffer).context = session.contexts.get? context := by
  rw [load, isOwner]
  rfl

theorem WellKept.handsOut_command (wellKept : session.WellKept)
    (held : session.buffers.get? name = some buffer) (command : Command) (context : String) :
    session.handsOut (.command name command) context =
      if buffer.context = some context then
        (session.load buffer).handlesFor
          (command.registrations (session.step (.command name command)).answer)
      else [] := by
  rw [wellKept.handsOut_eq]
  unfold nextHandle
  by_cases closes : command = .close
  · -- Closing registers nothing: it leaves the next handle as it is.
    subst closes
    rw [contexts_close, Command.registrations_of_not_add fun row => by simp]
    cases session.contexts.get? context <;> simp [nextHandle_closing, ResultState.handlesFor_nil]
  · rw [contexts_command held (wellKept.orderly.sound name buffer _ held) closes]
    by_cases isOwner : buffer.context = some context
    · rw [if_pos isOwner, if_pos isOwner, ResultState.handlesFor, load_context isOwner]
      cases session.contexts.get? context <;> simp [Context.registering]
    · rw [if_neg isOwner, if_neg isOwner, Option.map_id, id, Nat.sub_self]
      rfl

theorem handsOut_close (wellKept : session.WellKept)
    (held : session.buffers.get? name = some buffer) (context : String) :
    session.handsOut (.command name .close) context = [] := by
  rw [wellKept.handsOut_command held, Command.registrations_of_not_add fun row => by simp,
    ResultState.handlesFor_nil, ite_self]

theorem liveHandles_without (ended : List Nat) {after : Session}
    (contexts : after.contexts.get? context =
      (session.contexts.get? context).map (Context.without ended)) :
    after.liveHandles context =
      (session.liveHandles context).filter fun handle => decide (handle ∉ ended) := by
  unfold liveHandles
  rw [contexts]
  cases session.contexts.get? context with
  | none => rfl
  | some own => exact own.handles_without ended

theorem WellKept.liveHandles_command (wellKept : session.WellKept)
    (held : session.buffers.get? name = some buffer) {command : Command}
    (stays : command ≠ .close) (context : String) :
    (session.step (.command name command)).state.liveHandles context =
      session.liveHandles context ++ session.handsOut (.command name command) context := by
  rw [wellKept.handsOut_command held]
  have contexts := contexts_command held (wellKept.orderly.sound name buffer _ held) stays context
  unfold liveHandles
  rw [contexts]
  by_cases isOwner : buffer.context = some context
  · rw [if_pos isOwner, if_pos isOwner, ResultState.handlesFor, load_context isOwner]
    cases session.contexts.get? context with
    | none => rfl
    | some own => exact own.handles_registering _
  · rw [if_neg isOwner, if_neg isOwner, Option.map_id, id, List.append_nil]

variable {own : List Nat}

theorem WellKept.given_after (wellKept : session.WellKept)
    (given : ∀ handle ∈ own, handle < session.nextHandle context) (action : Action) :
    ∀ handle ∈ own ++ session.handsOut action context,
      handle < (session.step action).state.nextHandle context := by
  intro handle listed
  have later := (wellKept.handles_eq action context).1
  rw [wellKept.handsOut_eq, List.mem_append, List.mem_range'_1] at listed
  rcases listed with old | new
  · exact Nat.lt_of_lt_of_le (given handle old) later
  · omega

theorem WellKept.live_before (wellKept : session.WellKept)
    (given : ∀ handle ∈ own, handle < session.nextHandle context) {handle : Nat}
    (listed : handle ∈ own)
    (live : handle ∈ (session.step action).state.liveHandles context) :
    handle ∈ session.liveHandles context := by
  rcases wellKept.live_step live with old | new
  · exact old
  · exact absurd (given handle listed) (Nat.not_lt.mpr new)

end Session

end QueryResult
