import ContestPlatform.Service.Stores

/-!
# Operations that run alone

What a service operation gives on stores that nothing else uses, read off its text: each call is
answered by the stores as they are, and the first fault ends the operation.
-/

namespace ContestPlatform.Stores

variable {κ α β : Type} [ContentStore κ] (s : Stores κ)

@[simp] theorem perform_pure (a : α) : s.perform (pure a : Service α) = (.ok a, s) := rfl

/-- A sequence goes on with what its first part gives, unless it fails. -/
theorem run_bind {ε : Type} (x : ExceptT ε StoreProgram α) (f : α → ExceptT ε StoreProgram β) :
    s.run (x >>= f).run =
      match s.run x.run with
      | (.ok a, s) => s.run (f a).run
      | (.error e, s) => (.error e, s) := by
  -- A sequence of services is one of programs, of which the second looks at how the first ended.
  have hbind := Program.run_bind answer x.run (ExceptT.bindCont f) s
  unfold run
  rcases hx : Program.run answer x.run s with ⟨e | a, s'⟩
  · rw [hx] at hbind
    exact hbind
  · rw [hx] at hbind
    exact hbind

@[simp] theorem perform_bind (x : Service α) (f : α → Service β) :
    s.perform (x >>= f) =
      match s.perform x with
      | (.ok a, s) => s.perform (f a)
      | (.error fault, s) => (.error fault, s) := by
  refine (s.run_bind x f).trans ?_
  unfold perform
  rcases s.run x.run with ⟨fault | a, t⟩ <;> rfl

section Sequence

variable {s} {t : Stores κ} {x : Service α} {f : α → Service β}

theorem perform_bind_of_ok {a : α} (h : s.perform x = (.ok a, t)) :
    s.perform (x >>= f) = t.perform (f a) := by
  rw [perform_bind, h]

theorem perform_bind_of_error {fault : Fault} (h : s.perform x = (.error fault, t)) :
    s.perform (x >>= f) = (.error fault, t) := by
  rw [perform_bind, h]

end Sequence

/-- What an operation gives may be written in another form in the end. -/
@[simp] theorem perform_map (f : α → β) (x : Service α) :
    s.perform (f <$> x) =
      match s.perform x with
      | (.ok a, s) => (.ok (f a), s)
      | (.error fault, s) => (.error fault, s) := by
  have hbind : f <$> x = x >>= fun a => pure (f a) := by
    refine congrArg (x.run.bind ·) (funext fun result => ?_)
    cases result <;> rfl
  rw [hbind, perform_bind]
  rcases s.perform x with ⟨fault | a, t⟩ <;> rfl

@[simp] theorem perform_now : s.perform Service.now = (.ok s.now, s) := rfl

@[simp] theorem perform_database (call : Database.Call) :
    s.perform (Service.database call) =
      ((s.database.answer call).1, { s with database := (s.database.answer call).2 }) := rfl

theorem perform_of_answer {call : Database.Call} {answer : call.Answer} {db : Database}
    (h : s.database.answer call = (answer, db)) :
    s.perform (Service.database call) = (answer, { s with database := db }) := by
  rw [perform_database, h]

/-- A sequence that begins with a call that reads goes on with what was read. -/
theorem perform_read {call : Database.Call} {result : call.Result} {f : call.Result → Service α}
    (h : s.database.answer call = (.ok result, s.database)) :
    s.perform (Service.database call >>= f) = s.perform (f result) :=
  perform_bind_of_ok (s.perform_of_answer h)

@[simp] theorem perform_attempt (call : Content.Call) :
    s.perform (Service.attempt call) =
      (.ok (ContentStore.answer s.content call).1,
        { s with content := (ContentStore.answer s.content call).2 }) := rfl

@[simp] theorem perform_content (call : Content.Call) :
    s.perform (Service.content call) =
      ((ContentStore.answer s.content call).1.mapError .content,
        { s with content := (ContentStore.answer s.content call).2 }) := by
  rw [Service.content, perform_bind, perform_attempt]
  cases (ContentStore.answer s.content call).1 <;> rfl

@[simp] theorem perform_found_some (fault : Fault) (a : α) :
    s.perform (Service.found fault (some a)) = (.ok a, s) := rfl

@[simp] theorem perform_found_none (fault : Fault) :
    s.perform (Service.found fault (none : Option α)) = (.error fault, s) := rfl

end ContestPlatform.Stores
