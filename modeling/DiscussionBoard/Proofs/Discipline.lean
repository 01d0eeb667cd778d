import DiscussionBoard.Program

/-!
# Programs under rules

A program is held to rules whatever the answers to its requests are: a memo, which every answer
moves on, tells which requests may come next. What the rules say of one request then carries over
to whole runs, also to runs that a failed request ends. Where the rule needs no memo, a program asks
only requests of one kind.
-/

namespace DiscussionBoard.Program

/-- What may be asked, by a memo of what was asked and answered before. -/
structure Rules (signature : Signature) (σ : Type) where
  allows : signature.Request → σ → Prop
  /-- The answers that can come. -/
  expects : (request : signature.Request) → signature.Answer request → Prop
  learn : (request : signature.Request) → signature.Answer request → σ → σ

variable {signature : Signature} {σ τ α β : Type} {rules : Rules signature σ}

def Obeys (rules : Rules signature σ) (post : σ → α → Prop) : Program signature α → σ → Prop
  | done value, memo => post memo value
  | fail _, _ => False
  | ask request next, memo =>
    rules.allows request memo ∧ ∀ answer, rules.expects request answer →
      Obeys rules post (next answer) (rules.learn request answer memo)

theorem Obeys.bind {middle : σ → α → Prop} {post : σ → β → Prop} {program : Program signature α}
    {rest : α → Program signature β} {memo : σ} (hprogram : Obeys rules middle program memo)
    (hrest : ∀ memo value, middle memo value → Obeys rules post (rest value) memo) :
    Obeys rules post (program >>= rest) memo := by
  induction program generalizing memo with
  | done value => exact hrest memo value hprogram
  | fail fault => exact hprogram.elim
  | ask request next ih =>
      obtain ⟨hallows, hnext⟩ := hprogram
      exact ⟨hallows, fun answer hanswer => ih answer (hnext answer hanswer)⟩

theorem Obeys.mono {post weaker : σ → α → Prop} {program : Program signature α} {memo : σ}
    (hprogram : Obeys rules post program memo)
    (hpost : ∀ memo value, post memo value → weaker memo value) :
    Obeys rules weaker program memo := by
  induction program generalizing memo with
  | done value => exact hpost memo value hprogram
  | fail fault => exact hprogram
  | ask request next ih =>
      obtain ⟨hallows, hnext⟩ := hprogram
      exact ⟨hallows, fun answer hanswer => ih answer (hnext answer hanswer)⟩

theorem Obeys.map {post : σ → β → Prop} {program : Program signature α} {memo : σ} (f : α → β)
    (hprogram : Obeys rules (fun memo value => post memo (f value)) program memo) :
    Obeys rules post (f <$> program) memo := by
  rw [map_eq_pure_bind]
  exact hprogram.bind fun _ _ hpost => hpost

/-- A run keeps what every allowed request keeps. -/
theorem Obeys.run {post : σ → α → Prop}
    {perform : (request : signature.Request) → τ → signature.Answer request × τ}
    (inv : σ → τ → Prop)
    (hstep : ∀ request memo state, rules.allows request memo → inv memo state →
      rules.expects request (perform request state).1 ∧
        inv (rules.learn request (perform request state).1 memo) (perform request state).2)
    {program : Program signature α} {memo : σ} {state : τ}
    (hprogram : Obeys rules post program memo) (hinv : inv memo state) :
    ∃ value last, (run perform program state).1 = .ok value ∧ post last value ∧
      inv last (run perform program state).2 := by
  induction program generalizing memo state with
  | done value => exact ⟨value, memo, rfl, hprogram, hinv⟩
  | fail fault => exact hprogram.elim
  | ask request next ih =>
      obtain ⟨hallows, hnext⟩ := hprogram
      obtain ⟨hexpects, hkept⟩ := hstep request memo state hallows hinv
      exact ih _ (hnext _ hexpects) hkept

/-- The first failed request ends a run. -/
theorem interpret_ask
    (handle : (request : signature.Request) → StateM τ (Except Fault (signature.Answer request)))
    (request : signature.Request) (next : signature.Answer request → Program signature α)
    (state : τ) :
    interpret handle (ask request next) state =
      match handle request state with
      | (.ok answer, state) => interpret handle (next answer) state
      | (.error fault, state) => (.error fault, state) := by
  rw [interpret]
  simp only [bind, StateT.bind]
  rcases handle request state with ⟨fault | answer, after⟩ <;> rfl

theorem interpret_bind
    (handle : (request : signature.Request) → StateM τ (Except Fault (signature.Answer request)))
    (program : Program signature α) (rest : α → Program signature β) (state : τ) :
    interpret handle (program >>= rest) state =
      match interpret handle program state with
      | (.ok value, state) => interpret handle (rest value) state
      | (.error fault, state) => (.error fault, state) := by
  induction program generalizing state with
  | done value => rfl
  | fail fault => rfl
  | ask request next ih =>
      rw [ask_bind, interpret_ask, interpret_ask]
      rcases handle request state with ⟨fault | answer, after⟩
      · rfl
      · exact ih answer after

/-- A run that a failed request may end keeps what every allowed request keeps, and ends in what a
failed request leaves behind. -/
theorem Obeys.interpret {post : σ → α → Prop}
    (handle : (request : signature.Request) → StateM τ (Except Fault (signature.Answer request)))
    (inv : σ → τ → Prop) (broken : τ → Prop)
    (hstep : ∀ request memo state, rules.allows request memo → inv memo state →
      match handle request state with
      | (.ok answer, state) => rules.expects request answer ∧
          inv (rules.learn request answer memo) state
      | (.error _, state) => broken state)
    {program : Program signature α} {memo : σ} {state : τ}
    (hprogram : Obeys rules post program memo) (hinv : inv memo state) :
    match interpret handle program state with
    | (.ok value, state) => ∃ last, post last value ∧ inv last state
    | (.error _, state) => broken state := by
  induction program generalizing memo state with
  | done value => exact ⟨memo, hprogram, hinv⟩
  | fail fault => exact hprogram.elim
  | ask request next ih =>
      obtain ⟨hallows, hnext⟩ := hprogram
      have hrequest := hstep request memo state hallows hinv
      rw [interpret_ask]
      rcases hhandle : handle request state with ⟨fault | answer, after⟩
      · rw [hhandle] at hrequest
        exact hrequest
      · rw [hhandle] at hrequest
        exact ih answer (hnext answer hrequest.1) hrequest.2

/-! ### Requests of one kind -/

/-- Whatever is answered, a program makes allowed requests only, and ends with a value. -/
def AsksOnly (allowed : signature.Request → Prop) : Program signature α → Prop
  | done _ => True
  | fail _ => False
  | ask request next => allowed request ∧ ∀ answer, (next answer).AsksOnly allowed

section AsksOnly

variable {allowed : signature.Request → Prop} {program : Program signature α}
  {perform : (request : signature.Request) → τ → signature.Answer request × τ}

theorem AsksOnly.bind {rest : α → Program signature β} (hprogram : program.AsksOnly allowed)
    (hrest : ∀ value, (rest value).AsksOnly allowed) : (program >>= rest).AsksOnly allowed := by
  induction program with
  | done value => exact hrest value
  | fail fault => exact hprogram.elim
  | ask request next ih => exact ⟨hprogram.1, fun answer => ih answer (hprogram.2 answer)⟩

theorem AsksOnly.map (f : α → β) (hprogram : program.AsksOnly allowed) :
    (f <$> program).AsksOnly allowed := by
  rw [map_eq_pure_bind]
  exact hprogram.bind fun _ => trivial

theorem run_ask (request : signature.Request) (next : signature.Answer request → Program signature α)
    (state : τ) :
    run perform (ask request next) state =
      run perform (next (perform request state).1) (perform request state).2 := rfl

theorem AsksOnly.run_keeps (hprogram : program.AsksOnly allowed) (inv : τ → Prop)
    (hstep : ∀ request state, allowed request → inv state → inv (perform request state).2)
    {state : τ} (hinv : inv state) :
    ∃ value last, run perform program state = (.ok value, last) ∧ inv last := by
  induction program generalizing state with
  | done value => exact ⟨value, state, rfl, hinv⟩
  | fail fault => exact hprogram.elim
  | ask request next ih =>
      exact ih _ (hprogram.2 _) (hstep request state hprogram.1 hinv)

/-- Two states that answer the allowed requests alike, and are not changed by them, cannot be told
apart. -/
theorem AsksOnly.run_eq (hprogram : program.AsksOnly allowed) {state other : τ}
    (hstate : ∀ request, allowed request → (perform request state).2 = state)
    (hother : ∀ request, allowed request → (perform request other).2 = other)
    (hsame : ∀ request, allowed request →
      (perform request state).1 = (perform request other).1) :
    ∃ value, run perform program state = (.ok value, state) ∧
      run perform program other = (.ok value, other) := by
  induction program with
  | done value => exact ⟨value, rfl, rfl⟩
  | fail fault => exact hprogram.elim
  | ask request next ih =>
      obtain ⟨hallowed, hnext⟩ := hprogram
      obtain ⟨value, hrun, hrunOther⟩ := ih _ (hnext (perform request state).1)
      refine ⟨value, ?_, ?_⟩
      · rw [run_ask, hstate request hallowed]
        exact hrun
      · rw [run_ask, hother request hallowed, ← hsame request hallowed]
        exact hrunOther

end AsksOnly

/-- Whatever is answered, a program makes allowed requests only, but it may fail by itself. -/
def MayAsk (allowed : signature.Request → Prop) : Program signature α → Prop
  | done _ => True
  | fail _ => True
  | ask request next => allowed request ∧ ∀ answer, (next answer).MayAsk allowed

section MayAsk

variable {allowed : signature.Request → Prop} {program : Program signature α}

theorem mayAsk (program : Program signature α) : program.MayAsk fun _ => True := by
  induction program with
  | done value => trivial
  | fail fault => trivial
  | ask request next ih => exact ⟨trivial, ih⟩

theorem MayAsk.bind {rest : α → Program signature β} (hprogram : program.MayAsk allowed)
    (hrest : ∀ value, (rest value).MayAsk allowed) : (program >>= rest).MayAsk allowed := by
  induction program with
  | done value => exact hrest value
  | fail fault => trivial
  | ask request next ih => exact ⟨hprogram.1, fun answer => ih answer (hprogram.2 answer)⟩

theorem MayAsk.mono {weaker : signature.Request → Prop} (hprogram : program.MayAsk allowed)
    (h : ∀ request, allowed request → weaker request) : program.MayAsk weaker := by
  induction program with
  | done value => trivial
  | fail fault => trivial
  | ask request next ih => exact ⟨h request hprogram.1, fun answer => ih answer (hprogram.2 answer)⟩

theorem MayAsk.map (f : α → β) (hprogram : program.MayAsk allowed) :
    (f <$> program).MayAsk allowed := by
  rw [map_eq_pure_bind]
  exact hprogram.bind fun _ => trivial

theorem mayAsk_ofExcept (outcome : Except Fault α) :
    (ofExcept outcome : Program signature α).MayAsk allowed := by
  cases outcome <;> trivial

/-- What every allowed request keeps, failed or not, is kept by the run. -/
theorem MayAsk.interpret_keeps
    {handle : (request : signature.Request) → StateM τ (Except Fault (signature.Answer request))}
    (hprogram : program.MayAsk allowed) (inv : τ → Prop)
    (hstep : ∀ request state, allowed request → inv state → inv (handle request state).2)
    {state : τ} (hinv : inv state) : inv (interpret handle program state).2 := by
  induction program generalizing state with
  | done value => exact hinv
  | fail fault => exact hinv
  | ask request next ih =>
      have hkept := hstep request state hprogram.1 hinv
      rw [interpret_ask]
      rcases hhandle : handle request state with ⟨fault | answer, after⟩
      · rw [hhandle] at hkept
        exact hkept
      · rw [hhandle] at hkept
        exact ih answer (hprogram.2 answer) hkept

end MayAsk

end DiscussionBoard.Program
