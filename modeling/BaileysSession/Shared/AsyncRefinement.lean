import BaileysSession.Shared.Async

set_option autoImplicit false

-- Programs over two levels, the lower of which answers their calls as the upper one does.
namespace Async

variable {Call : Type} {Reply : Call → Type} {Error Result Other Choice World Draw State : Type}

def Oracle.seen (oracle : Oracle Draw) (chosen : Draw → Choice) : Oracle Choice :=
  fun index => chosen (oracle index)

section Levels

variable (effect : Effect Reply Choice World) (ok : World → Call → Choice → Prop)
  (lower : Effect Reply Draw State) (taken : State → Call → Draw → Prop) (inv : State → Prop)
  (chosen : Draw → Choice) (view : State → World)

/-- An allowed call of the lower level is, in this view, one of the upper level. -/
structure Mirrors (allowed : Call → Prop) : Prop where
  fine : ∀ call draw state, allowed call → inv state → taken state call draw →
    ok (view state) call (chosen draw)
  same : ∀ call draw state, allowed call → inv state → taken state call draw →
    effect call (chosen draw) (view state) =
      ((lower call draw state).1, view (lower call draw state).2)
  kept : ∀ call draw state, allowed call → inv state → taken state call draw →
    inv (lower call draw state).2

/-- So is a whole evaluation. -/
structure Shown (program : Async Call Reply Error Result) (oracle : Oracle Draw) (state : State) :
    Prop where
  along : Along effect ok program (oracle.seen chosen) (view state)
  result : (evaluate effect program (oracle.seen chosen) (view state)).result =
    (evaluate lower program oracle state).result
  world : (evaluate effect program (oracle.seen chosen) (view state)).world =
    view (evaluate lower program oracle state).world
  kept : inv (evaluate lower program oracle state).world

variable {effect ok lower taken inv chosen view} {allowed : Call → Prop}
  {program : Async Call Reply Error Result}

theorem Shown.await {call : Call} {next : Reply call → Async Call Reply Error Result}
    {oracle : Oracle Draw} {state : State} (fine : ok (view state) call (chosen (oracle 0)))
    (same : effect call (chosen (oracle 0)) (view state) =
      ((lower call (oracle 0) state).1, view (lower call (oracle 0) state).2))
    (rest : Shown effect ok lower inv chosen view (next (lower call (oracle 0) state).1)
      oracle.later (lower call (oracle 0) state).2) :
    Shown effect ok lower inv chosen view (.await call next) oracle state := by
  have first : effect call (oracle.seen chosen 0) (view state) = _ := same
  constructor
  · refine ⟨fine, ?_⟩
    rw [first]
    exact rest.along
  · simp only [evaluate, first]
    exact rest.result
  · simp only [evaluate, first]
    exact rest.world
  · exact rest.kept

theorem Mirrors.shown (mirrors : Mirrors effect ok lower taken inv chosen view allowed)
    (only : program.Only allowed) {oracle : Oracle Draw} {state : State} (initial : inv state)
    (along : Along lower taken program oracle state) :
    Shown effect ok lower inv chosen view program oracle state := by
  induction program generalizing oracle state with
  | done => exact ⟨trivial, rfl, rfl, initial⟩
  | failed => exact ⟨trivial, rfl, rfl, initial⟩
  | await call next ih =>
    apply Shown.await (mirrors.fine call _ state only.1 initial along.1)
      (mirrors.same call _ state only.1 initial along.1)
    exact ih _ (only.2 _) (mirrors.kept call _ state only.1 initial along.1) along.2

theorem Mirrors.mono (mirrors : Mirrors effect ok lower taken inv chosen view allowed)
    {fewer : Call → Prop} (allows : ∀ call, fewer call → allowed call) :
    Mirrors effect ok lower taken inv chosen view fewer :=
  ⟨fun call draw state here => mirrors.fine call draw state (allows call here),
    fun call draw state here => mirrors.same call draw state (allows call here),
    fun call draw state here => mirrors.kept call draw state (allows call here)⟩

end Levels

section Guesses

def Once (read : Call) (allowed : Call → Prop) : Async Call Reply Error Result → Prop
  | .done _ => True
  | .failed _ => True
  | .await call next =>
    (allowed call ∧ ∀ reply, Once read allowed (next reply)) ∨
      (call = read ∧ ∀ reply, (next reply).Only allowed)

theorem once_bind {read : Call} {allowed : Call → Prop} {program : Async Call Reply Error Result}
    {next : Result → Async Call Reply Error Other} (first : program.Once read allowed)
    (later : ∀ result, (next result).Only allowed) : (program >>= next).Once read allowed := by
  have only : ∀ {program : Async Call Reply Error Other}, program.Only allowed →
      program.Once read allowed := by
    intro program only
    induction program with
    | done | failed => trivial
    | await call rest ih => exact .inl ⟨only.1, fun reply => ih reply (only.2 reply)⟩
  induction program with
  | done result => exact only (later result)
  | failed => trivial
  | await call rest ih =>
    rcases first with ⟨here, more⟩ | ⟨here, more⟩
    · exact .inl ⟨here, fun reply => ih reply (more reply)⟩
    · exact .inr ⟨here, fun reply => only_bind (more reply) later⟩

theorem once_after {read : Call} {allowed : Call → Prop} {program : Async Call Reply Error Result}
    {next : Result → Async Call Reply Error Other} (first : program.Only allowed)
    (later : ∀ result, (next result).Once read allowed) : (program >>= next).Once read allowed := by
  induction program with
  | done result => exact later result
  | failed => trivial
  | await call rest ih => exact .inl ⟨first.1, fun reply => ih reply (first.2 reply)⟩

variable {effect : Effect Reply Choice World} {ok : World → Call → Choice → Prop}
  {lower : Effect Reply Draw State} {taken : State → Call → Draw → Prop} {inv : State → Prop}
  {chosen : Draw → Choice} {view : State → World} {Guess : Type} {vary : Guess → World → World}
  {blind : Call → Prop} {read : Call}

/-- No blind call tells apart worlds that differ in what is guessed. -/
structure Blind (effect : Effect Reply Choice World) (ok : World → Call → Choice → Prop)
    (vary : Guess → World → World) (blind : Call → Prop) : Prop where
  fine : ∀ call choice guess world, blind call → ok world call choice →
    ok (vary guess world) call choice
  same : ∀ call choice guess world, blind call → effect call choice (vary guess world) =
    ((effect call choice world).1, vary guess (effect call choice world).2)

theorem Blind.mirrors (blinds : Blind effect ok vary blind)
    (mirrors : Mirrors effect ok lower taken inv chosen view blind) (guess : Guess) :
    Mirrors effect ok lower taken inv chosen (fun state => vary guess (view state)) blind := by
  constructor
  · intro call draw state here initial fits
    exact blinds.fine call _ guess _ here (mirrors.fine call draw state here initial fits)
  · intro call draw state here initial fits
    rw [blinds.same call _ guess _ here, mirrors.same call draw state here initial fits]
  · exact mirrors.kept

/-- What the lower level answers to a read is right for a guess. -/
def Foreseen (effect : Effect Reply Choice World) (ok : World → Call → Choice → Prop)
    (lower : Effect Reply Draw State) (taken : State → Call → Draw → Prop) (inv : State → Prop)
    (chosen : Draw → Choice) (view : State → World) (vary : Guess → World → World) (read : Call) :
    Prop :=
  ∀ draw state, inv state → taken state read draw →
    inv (lower read draw state).2 ∧ ∃ guess, ok (vary guess (view state)) read (chosen draw) ∧
      effect read (chosen draw) (vary guess (view state)) =
        ((lower read draw state).1, vary guess (view (lower read draw state).2))

variable (blinds : Blind effect ok vary blind)
  (mirrors : Mirrors effect ok lower taken inv chosen view blind)
  (foreseen : Foreseen effect ok lower taken inv chosen view vary read)

include blinds mirrors foreseen

theorem shown_foreseen [Inhabited Guess] {program : Async Call Reply Error Result}
    (once : program.Once read blind) {oracle : Oracle Draw} {state : State} (initial : inv state)
    (along : Along lower taken program oracle state) :
    ∃ guess, Shown effect ok lower inv chosen (fun state => vary guess (view state)) program oracle
      state := by
  induction program generalizing oracle state with
  | done => exact ⟨default, trivial, rfl, rfl, initial⟩
  | failed => exact ⟨default, trivial, rfl, rfl, initial⟩
  | await call next ih =>
    rcases once with ⟨here, more⟩ | ⟨rfl, more⟩
    · obtain ⟨guess, rest⟩ := ih _ (more _) (mirrors.kept call _ state here initial along.1) along.2
      have varied := blinds.mirrors mirrors guess
      exact ⟨guess, .await (varied.fine call _ state here initial along.1)
        (varied.same call _ state here initial along.1) rest⟩
    · obtain ⟨kept, guess, fine, same⟩ := foreseen (oracle 0) state initial along.1
      exact ⟨guess, .await fine same
        ((blinds.mirrors mirrors guess).shown (more _) kept along.2)⟩

theorem Triple.guessed [Inhabited Guess] {program : Async Call Reply Error Result}
    {before : World → Prop} {after : Except Error Result → World → Prop}
    (triple : Triple effect ok before program after) (once : program.Once read blind)
    (steady : ∀ guess world, before world → before (vary guess world))
    (unmoved : ∀ guess result world, after result (vary guess world) → after result world) :
    Triple lower taken (fun state => before (view state) ∧ inv state) program
      (fun result state => after result (view state) ∧ inv state) := by
  constructor
  rintro oracle state ⟨holds, initial⟩ along
  obtain ⟨guess, shown⟩ := shown_foreseen blinds mirrors foreseen once initial along
  have settled := triple.run _ _ (steady guess _ holds) shown.along
  rw [shown.result, shown.world] at settled
  exact ⟨unmoved guess _ _ settled, shown.kept⟩

end Guesses

end Async
