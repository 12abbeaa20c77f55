import InstallAssistant.Host.Basic

/-!
# InstallAssistant.Proofs.Host.Session

Tasks on a directory that is a value: what they come to, one step of a `do` block
at a time (`perform_bind_eq_ok_iff`, `perform_bind_eq_error_iff`); the tasks that
leave everything as it is (`Quiet`); and those that fail for no other reason than
a file that cannot be read or written (`FailsByIo`).
-/

namespace InstallAssistant.Host

variable {α β : Type}

/-- What a task comes to, and the session after it. -/
def perform (x : Task (StateM Session) α) (s : Session) : Except Failure α × Session := x.run.run s

/-! ## steps -/

section

variable {x : Task (StateM Session) α} {f : α → Task (StateM Session) β} {s s' : Session}

@[simp] theorem perform_pure (a : α) (s : Session) :
    perform (pure a : Task (StateM Session) α) s = (.ok a, s) := rfl

@[simp] theorem perform_throw (e : Failure) (s : Session) :
    perform (throw e : Task (StateM Session) α) s = (.error e, s) := rfl

/-- A result that does not depend on the host. -/
@[simp] theorem perform_mk_pure (r : Except Failure α) (s : Session) :
    perform (ExceptT.mk (pure r) : Task (StateM Session) α) s = (r, s) := rfl

@[simp] theorem perform_lift (y : StateM Session α) (s : Session) :
    perform (liftM y : Task (StateM Session) α) s = (.ok (y.run s).1, (y.run s).2) := rfl

theorem perform_bind (x : Task (StateM Session) α) (f : α → Task (StateM Session) β) (s : Session) :
    perform (x >>= f) s =
      match perform x s with
      | (.ok a, s₁) => perform (f a) s₁
      | (.error e, s₁) => (.error e, s₁) := by
  have hrun : perform (x >>= f) s = (ExceptT.bindCont f (perform x s).1).run (perform x s).2 := rfl
  rw [hrun]
  rcases perform x s with ⟨_ | _, _⟩ <;> rfl

theorem perform_bind_eq_ok_iff {b : β} :
    perform (x >>= f) s = (.ok b, s') ↔
      ∃ a s₁, perform x s = (.ok a, s₁) ∧ perform (f a) s₁ = (.ok b, s') := by
  rw [perform_bind]
  rcases perform x s with ⟨_ | _, _⟩
  · simp
  · simp [and_assoc]

theorem perform_bind_eq_error_iff {e : Failure} :
    perform (x >>= f) s = (.error e, s') ↔
      perform x s = (.error e, s') ∨
        ∃ a s₁, perform x s = (.ok a, s₁) ∧ perform (f a) s₁ = (.error e, s') := by
  rw [perform_bind]
  rcases perform x s with ⟨_ | _, _⟩
  · simp
  · simp [and_assoc]

end

/-! ## tasks that only look -/

/-- Tasks that leave everything as it is. -/
def Quiet (x : Task (StateM Session) α) : Prop := ∀ s, (perform x s).2 = s

namespace Quiet

variable {x : Task (StateM Session) α} {f : α → Task (StateM Session) β} {s s' : Session}

theorem eq_of_perform (hx : Quiet x) {r : Except Failure α} (h : perform x s = (r, s')) :
    s' = s := by
  rw [← hx s, h]

theorem pure (a : α) : Quiet (Pure.pure a : Task (StateM Session) α) := fun _ => rfl

theorem throw (e : Failure) : Quiet (MonadExcept.throw e : Task (StateM Session) α) := fun _ => rfl

theorem ofExcept (r : Except Failure α) :
    Quiet (ExceptT.mk (Pure.pure r) : Task (StateM Session) α) := fun _ => rfl

theorem lift {y : StateM Session α} (h : ∀ s, (y.run s).2 = s) :
    Quiet (liftM y : Task (StateM Session) α) := h

theorem bind (hx : Quiet x) (hf : ∀ a, Quiet (f a)) : Quiet (x >>= f) := by
  intro s
  rw [perform_bind]
  rcases h : perform x s with ⟨_ | a, s₁⟩
  · exact hx.eq_of_perform h
  · exact (hf a s₁).trans (hx.eq_of_perform h)

/-- A check that throws leaves the steps behind it undone. -/
theorem throw_bind (e : Failure) : Quiet (MonadExcept.throw e >>= f) := fun _ => rfl

theorem foldlM {f : β → α → Task (StateM Session) β} (hf : ∀ b a, Quiet (f b a)) (b : β)
    (xs : List α) : Quiet (xs.foldlM f b) := by
  induction xs generalizing b with
  | nil => exact .pure b
  | cons a xs ih => exact .bind (hf b a) ih

theorem filterM {f : α → Task (StateM Session) Bool} (hf : ∀ a, Quiet (f a)) (xs : List α) :
    Quiet (xs.filterM f) := by
  have haux : ∀ xs kept : List α, Quiet (List.filterAuxM f xs kept) := by
    intro xs
    induction xs with
    | nil => exact .pure
    | cons a xs ih => exact fun kept => .bind (hf a) fun _ => ih _
  exact .bind (haux xs []) fun _ => .pure _

end Quiet

/-! ## tasks that fail by input and output -/

/-- Tasks that fail only because a file or a folder cannot be read or written. -/
def FailsByIo (x : Task (StateM Session) α) : Prop :=
  ∀ s e s', perform x s = (.error e, s') → Failure.io ∈ e.causes

namespace FailsByIo

variable {x : Task (StateM Session) α} {f : α → Task (StateM Session) β}

theorem pure (a : α) : FailsByIo (Pure.pure a : Task (StateM Session) α) := by
  rintro s e s' ⟨⟩

theorem lift (y : StateM Session α) : FailsByIo (liftM y : Task (StateM Session) α) := by
  rintro s e s' ⟨⟩

theorem bind (hx : FailsByIo x) (hf : ∀ a, FailsByIo (f a)) : FailsByIo (x >>= f) := by
  intro s e s' h
  rcases perform_bind_eq_error_iff.mp h with h | ⟨a, s₁, _, h⟩
  · exact hx s e s' h
  · exact hf a s₁ e s' h

theorem forM {f : β → Task (StateM Session) PUnit} (hf : ∀ b, FailsByIo (f b)) (bs : List β) :
    FailsByIo (bs.forM f) := by
  induction bs with
  | nil => exact .pure _
  | cons b bs ih => exact .bind (hf b) fun _ => ih

end FailsByIo

/-! ## operations -/

section

variable {input : List UInt8} {time : String} {s s' : Session} {summary path text : String}

theorem perform_now (s : Session) :
    perform (liftM (ofDirectory input time).now) s = (.ok time, s) := rfl

theorem perform_printLine (line : String) (s : Session) :
    perform (liftM ((ofDirectory input time).printLine line)) s =
      (.ok (), { s with printed := s.printed ++ (line ++ "\n") }) := rfl

theorem perform_exists (path : String) (s : Session) :
    perform (liftM ((ofDirectory input time).exists? path)) s =
      (.ok (s.directory.kind? path).isSome, s) := rfl

theorem perform_needText :
    perform ((ofDirectory input time).needText summary path) s =
      (match (s.directory.read? path).bind Text.Utf8.decode? with
        | some text => .ok (String.ofList text)
        | none => .error ⟨summary, [Failure.io]⟩, s) := by
  rw [needText, perform_bind, perform_lift]
  have hrun : ((ofDirectory input time).readText path).run s =
      (((s.directory.read? path).bind Text.Utf8.decode?).map String.ofList, s) := rfl
  rw [hrun]
  cases (s.directory.read? path).bind Text.Utf8.decode? <;> rfl

theorem perform_writeText :
    perform ((ofDirectory input time).writeText summary path text) s =
      match s.directory.write? path (Text.Utf8.encode text) with
      | some d => (.ok (), { s with directory := d })
      | none => (.error ⟨summary, [Failure.io]⟩, s) := by
  rw [writeText, perform_bind, perform_lift]
  have hrun : ((ofDirectory input time).write path (Text.Utf8.encode text)).run s =
      match s.directory.write? path (Text.Utf8.encode text) with
      | some d => (true, { s with directory := d })
      | none => (false, s) := by
    cases h : s.directory.write? path (Text.Utf8.encode text) <;> simp [ofDirectory, h] <;> rfl
  rw [hrun]
  cases s.directory.write? path (Text.Utf8.encode text) <;> rfl

theorem perform_needFolders :
    perform ((ofDirectory input time).needFolders path) s =
      match s.directory.make? path with
      | some d => (.ok (), { s with directory := d })
      | none => (.error ⟨s!"failed to create {path}", [Failure.io]⟩, s) := by
  rw [needFolders, perform_bind, perform_lift]
  have hrun : ((ofDirectory input time).makeFolders path).run s =
      match s.directory.make? path with
      | some d => (true, { s with directory := d })
      | none => (false, s) := by
    cases h : s.directory.make? path <;> simp [ofDirectory, h] <;> rfl
  rw [hrun]
  cases s.directory.make? path <;> rfl

theorem write?_of_perform
    (h : perform ((ofDirectory input time).writeText summary path text) s = (.ok (), s')) :
    s.directory.write? path (Text.Utf8.encode text) = some s'.directory := by
  rw [perform_writeText] at h
  split at h
  · next d hd => cases h; exact hd
  · cases h

theorem make?_of_perform
    (h : perform ((ofDirectory input time).needFolders path) s = (.ok (), s')) :
    s.directory.make? path = some s'.directory := by
  rw [perform_needFolders] at h
  split at h
  · next d hd => cases h; exact hd
  · cases h

theorem failsByIo_writeText : FailsByIo ((ofDirectory input time).writeText summary path text) := by
  intro s e s' h
  rw [perform_writeText] at h
  split at h
  · cases h
  · cases h
    exact List.mem_singleton_self _

theorem failsByIo_needFolders : FailsByIo ((ofDirectory input time).needFolders path) := by
  intro s e s' h
  rw [perform_needFolders] at h
  split at h
  · cases h
  · cases h
    exact List.mem_singleton_self _

end

end InstallAssistant.Host
