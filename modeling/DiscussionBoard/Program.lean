import DiscussionBoard.Fault

/-!
# Programs

An operation of the board is a program: a tree of requests, each with a continuation for its answer.
Whoever runs a program answers the requests one by one, so the same program can be run on stored
data, under failures, or in pieces between the requests of others.
-/

namespace DiscussionBoard

/-- What can be asked, and the kind of answer each request gets. -/
structure Signature where
  Request : Type
  Answer : Request → Type

inductive Program (signature : Signature) (α : Type) : Type
  | done (value : α)
  | fail (fault : Fault)
  | ask (request : signature.Request) (next : signature.Answer request → Program signature α)

namespace Program

variable {signature : Signature} {α β γ : Type}

protected def bind : Program signature α → (α → Program signature β) → Program signature β
  | done value, rest => rest value
  | fail fault, _ => fail fault
  | ask request next, rest => ask request fun answer => (next answer).bind rest

instance : Monad (Program signature) where
  pure := done
  bind := Program.bind

def ofExcept : Except Fault α → Program signature α
  | .ok value => done value
  | .error fault => fail fault

/-- Runs a program by answering its requests. The first request that fails ends it. -/
def interpret {m : Type → Type} [Monad m]
    (handle : (request : signature.Request) → m (Except Fault (signature.Answer request))) :
    Program signature α → m (Except Fault α)
  | done value => pure (.ok value)
  | fail fault => pure (.error fault)
  | ask request next => do
    match ← handle request with
    | .ok answer => interpret handle (next answer)
    | .error fault => pure (.error fault)

/-- Runs a program on a state where every request succeeds. -/
def run {σ : Type} (perform : (request : signature.Request) → σ → signature.Answer request × σ) :
    Program signature α → σ → Except Fault α × σ
  | done value, state => (.ok value, state)
  | fail fault, state => (.error fault, state)
  | ask request next, state =>
    let (answer, state) := perform request state
    run perform (next answer) state

@[simp]
theorem pure_eq_done (value : α) : (pure value : Program signature α) = done value := rfl

@[simp]
theorem done_bind (value : α) (rest : α → Program signature β) :
    done value >>= rest = rest value := rfl

@[simp]
theorem fail_bind (fault : Fault) (rest : α → Program signature β) :
    (fail fault : Program signature α) >>= rest = fail fault := rfl

@[simp]
theorem ask_bind (request : signature.Request)
    (next : signature.Answer request → Program signature α) (rest : α → Program signature β) :
    ask request next >>= rest = ask request fun answer => next answer >>= rest := rfl

theorem bind_done (program : Program signature α) : program >>= done = program := by
  induction program with
  | done value => rfl
  | fail fault => rfl
  | ask request next ih => simp [ih]

theorem bind_bind (program : Program signature α) (rest : α → Program signature β)
    (last : β → Program signature γ) :
    program >>= rest >>= last = program >>= fun value => rest value >>= last := by
  induction program with
  | done value => rfl
  | fail fault => rfl
  | ask request next ih => simp [ih]

instance : LawfulMonad (Program signature) := LawfulMonad.mk' (Program signature)
  bind_done (fun _ _ => rfl) bind_bind

/-- Running a sequence runs its first part, then the rest on what the first part left. -/
theorem run_bind {σ : Type}
    (perform : (request : signature.Request) → σ → signature.Answer request × σ)
    (program : Program signature α) (rest : α → Program signature β) (state : σ) :
    run perform (program >>= rest) state =
      match run perform program state with
      | (.ok value, state) => run perform (rest value) state
      | (.error fault, state) => (.error fault, state) := by
  induction program generalizing state with
  | done value => rfl
  | fail fault => rfl
  | ask request next ih => simp [run, ih]

/-- Running on a state is answering each request in the state monad. -/
theorem interpret_eq_run {σ : Type}
    (perform : (request : signature.Request) → σ → signature.Answer request × σ)
    (program : Program signature α) (state : σ) :
    (interpret (fun request state => ((.ok (perform request state).1), (perform request state).2))
      program : StateM σ (Except Fault α)) state = run perform program state := by
  induction program generalizing state with
  | done value => rfl
  | fail fault => rfl
  | ask request next ih =>
    have hnext := ih (perform request state).1 (perform request state).2
    rw [interpret, run]
    exact hnext

end Program

end DiscussionBoard
