import QueryResult.Proofs.Buffer.Blank
import QueryResult.Proofs.Session.Environment
import QueryResult.Proofs.Session.Handles

/-!
# Objects registered by buffers

What buffers register are owned copies. No operation turns one into an object
that is linked to a source, and the handle of one is not given to another object,
so that whatever is to be found under such a handle depends on no source.
-/

set_option autoImplicit false

namespace QueryResult

theorem Command.registrations_unlinked (command : Command) (answer : Except Fault Answer) :
    Row.Unlinked (command.registrations answer) := by
  unfold registrations
  split
  · exact Row.unlinked_copies _
  · exact fun _ listed => absurd listed List.not_mem_nil

namespace Context

variable {context after : Context} {entry : Nat × Value}

/-- An object was there before with the same content, unless that is the content of a source, or it
was registered under one of the next handles. -/
theorem Change.mem_largeObjects (change : context.Change after)
    (listed : entry ∈ after.largeObjects) :
    (∃ old ∈ context.largeObjects, old.1 = entry.1 ∧
        (old.2.isLinked = false → entry.2 = old.2)) ∨
      context.nextHandle ≤ entry.1 := by
  cases change with
  | kept => exact .inl ⟨entry, listed, rfl, fun _ => rfl⟩
  | limited threshold => exact .inl ⟨entry, listed, rfl, fun _ => rfl⟩
  | registered values =>
      rcases List.mem_append.mp listed with old | new
      · exact .inl ⟨entry, old, rfl, fun _ => rfl⟩
      · exact .inr (List.mem_range'_1.mp (List.of_mem_zip new).1).1
  | released handles => exact .inl ⟨entry, List.mem_of_mem_filter listed, rfl, fun _ => rfl⟩
  | followed source content =>
      obtain ⟨old, present, rfl⟩ := List.mem_map.mp listed
      exact .inl ⟨old, present, rfl, Value.follow_of_not_linked source content⟩

end Context

namespace Session

variable {session : Session} {name context : String} {action : Action} {entry : Nat × Value}

/-- The objects that are registered with the context of a name, with their handles. -/
def objects (session : Session) (context : String) : List (Nat × Value) :=
  (session.contexts.get? context).elim [] Context.largeObjects

/-- The object under a handle in the context of a name. -/
def object? (session : Session) (context : String) (handle : Nat) : Option Value :=
  (session.contexts.get? context).bind fun own => own.find? handle

theorem liveHandles_eq (session : Session) (context : String) :
    session.liveHandles context = (session.objects context).map Prod.fst := by
  unfold liveHandles objects
  cases session.contexts.get? context <;> rfl

theorem mem_objects {handle : Nat} {value : Value}
    (found : session.object? context handle = some value) :
    (handle, value) ∈ session.objects context := by
  obtain ⟨own, present, found⟩ := Option.bind_eq_some_iff.mp found
  obtain ⟨entry, listed, rfl⟩ := Option.map_eq_some_iff.mp found
  have sameHandle := List.find?_some listed
  rw [decide_eq_true_eq] at sameHandle
  rw [objects, present, ← sameHandle]
  exact List.mem_of_find?_eq_some listed

theorem objects_step (orderly : session.holdings.Orderly)
    (listed : entry ∈ (session.step action).state.objects context) :
    (∃ old ∈ session.objects context, old.1 = entry.1 ∧
        (old.2.isLinked = false → entry.2 = old.2)) ∨
      session.nextHandle context ≤ entry.1 := by
  have step := contexts_step orderly action context
  unfold objects nextHandle at *
  generalize session.contexts.get? context = before at step
  generalize (session.step action).state.contexts.get? context = after at step listed
  cases step with
  | absent => cases listed
  | opened threshold => cases listed
  | changed change => exact change.mem_largeObjects listed

theorem objects_of_map {after : Session} {change : Context → Context}
    (contexts : after.contexts.get? context = (session.contexts.get? context).map change)
    (changes : ∀ own : Context, ∀ entry ∈ (change own).largeObjects,
      entry ∈ own.largeObjects ∨ entry.2.isLinked = false)
    (listed : entry ∈ after.objects context) :
    entry ∈ session.objects context ∨ entry.2.isLinked = false := by
  unfold objects at *
  rw [contexts] at listed
  cases found : session.contexts.get? context with
  | none =>
      rw [found] at listed
      cases listed
  | some own =>
      rw [found] at listed
      exact changes own entry listed

theorem mem_closing (session : Session) (name context : String) (own : Context) :
    ∀ entry ∈ (session.closing name context own).largeObjects,
      entry ∈ own.largeObjects ∨ entry.2.isLinked = false := by
  intro entry listed
  cases held : session.buffers.get? name with
  | none =>
      rw [closing_eq_id held] at listed
      exact .inl listed
  | some buffer =>
      rw [closing_eq held] at listed
      unfold Buffer.closing at listed
      split at listed
      · exact .inl (List.mem_of_mem_filter listed)
      · exact .inl listed

/-- An operation on a buffer registers no object that depends on a source. -/
theorem objects_step_of_usesBuffers (orderly : session.holdings.Orderly)
    (uses : action.usesBuffers = true)
    (listed : entry ∈ (session.step action).state.objects context) :
    entry ∈ session.objects context ∨ entry.2.isLinked = false := by
  have made : ∀ {name : String} {owner : Option String}, action.Makes name owner →
      entry ∈ session.objects context ∨ entry.2.isLinked = false := by
    intro name owner makes
    cases step_making orderly makes with
    | failed _ contexts =>
        rw [objects, contexts] at listed
        exact .inl listed
    | made _ _ _ _ _ contexts =>
        exact objects_of_map (contexts context) (session.mem_closing name context) listed
  cases action with
  | openBuffer name schema visible owner threshold => exact made ⟨rfl, rfl⟩
  | readBuffer name source limit owner => exact made ⟨rfl, rfl⟩
  | copyBuffer name source owner => exact made ⟨rfl, rfl⟩
  | destroy name =>
      exact objects_of_map (session.contexts_destroy name context)
        (session.mem_closing name context) listed
  | command name command =>
      cases held : session.buffers.get? name with
      | none =>
          simp only [step, onBuffer, held] at listed
          exact .inl listed
      | some buffer =>
          by_cases closes : command = .close
          · subst closes
            exact objects_of_map (session.contexts_close name context)
              (session.mem_closing name context) listed
          · have sound : (session.load buffer).Sound := orderly.sound name buffer _ held
            refine objects_of_map (contexts_command held sound closes context) ?_ listed
            intro own entry listed
            split at listed
            · rcases List.mem_append.mp listed with old | new
              · exact .inl old
              · exact .inr (command.registrations_unlinked _ _ (List.of_mem_zip new).2)
            · exact .inl listed
  | _ => cases uses

/-- What is registered under these handles depends on no source. -/
def KeepsOwned (session : Session) (context : String) (own : List Nat) : Prop :=
  ∀ entry ∈ session.objects context, entry.1 ∈ own → entry.2.isLinked = false

variable {own : List Nat}

theorem KeepsOwned.after (kept : session.KeepsOwned context own) (wellKept : session.WellKept)
    (given : ∀ handle ∈ own, handle < session.nextHandle context) (action : Action) :
    (session.step action).state.KeepsOwned context
      (own ++ if action.usesBuffers then session.handsOut action context else []) := by
  intro entry listed handed
  rcases List.mem_append.mp handed with old | new
  · rcases objects_step wellKept.orderly listed with
      ⟨before, present, sameHandle, sameValue⟩ | fresh
    · have unlinked := kept before present (sameHandle.symm ▸ old)
      rw [sameValue unlinked]
      exact unlinked
    · exact absurd (given entry.1 old) (Nat.not_lt.mpr fresh)
  · split at new
    · rename_i uses
      rcases objects_step_of_usesBuffers wellKept.orderly uses listed with present | unlinked
      · have live : entry.1 ∈ session.liveHandles context := by
          rw [liveHandles_eq]
          exact List.mem_map_of_mem present
        simp [handsOut, live] at new
      · exact unlinked
    · cases new

/-- What operations on buffers have registered in a run depends on no source in the end. -/
theorem KeepsOwned.afterAll (kept : session.KeepsOwned context own) (wellKept : session.WellKept)
    (given : ∀ handle ∈ own, handle < session.nextHandle context) (actions : List Action) :
    (session.stepAll actions).2.KeepsOwned context
      (own ++ handedOut (fun _ action => action.usesBuffers) context actions session) := by
  induction actions generalizing session own with
  | nil =>
      rw [handedOut, List.append_nil]
      exact kept
  | cons action rest ih =>
      have still := kept.after wellKept given action
      have givenAfter : ∀ handle ∈ own ++
          (if action.usesBuffers then session.handsOut action context else []),
          handle < (session.step action).state.nextHandle context := by
        intro handle listed
        refine wellKept.given_after given action handle ?_
        rcases List.mem_append.mp listed with old | new
        · exact List.mem_append_left _ old
        · split at new
          · exact List.mem_append_right _ new
          · cases new
      have reached := ih still (wellKept.after action) givenAfter
      rwa [List.append_assoc] at reached

end Session

end QueryResult
