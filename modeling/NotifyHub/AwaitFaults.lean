import Mathlib.Tactic

/-!
# Asynchronous code with a fault at any await

A computation over a world either returns a value or raises, and leaves the
world as it was at that moment.  What happens at each await is given by a
plan: the awaited operation completes, or it raises before it took effect, or
it raises after it took effect.  A cancellation is a fault like any other; the
handlers choose which faults they catch.

The inversion lemmas `..._eq_ok` say exactly when a computation returns, and
the rules of `Keeps` what it preserves however it ends.
-/

namespace NotifyHub

/-- What the environment does at one await. -/
inductive Disposition (Fault : Type*)
  | completes
  | failsBefore (fault : Fault)
  | failsAfter (fault : Fault)
  deriving DecidableEq

namespace Disposition

variable {Fault : Type*}

/-- The awaited operation took effect. -/
def executes : Disposition Fault → Bool
  | .failsBefore _ => false
  | _ => true

def raised? : Disposition Fault → Option Fault
  | .completes => none
  | .failsBefore fault | .failsAfter fault => some fault

end Disposition

/-- A computation which returns or raises. -/
def AsyncM (Fault World : Type*) (Value : Type) :=
  World → Except Fault Value × World

namespace AsyncM

variable {Fault World Point : Type*} {Value Other : Type}

protected def pure (value : Value) : AsyncM Fault World Value :=
  fun world => (.ok value, world)

protected def bind
    (first : AsyncM Fault World Value)
    (rest : Value → AsyncM Fault World Other) :
    AsyncM Fault World Other :=
  fun world =>
    match first world with
    | (.ok value, next) => rest value next
    | (.error fault, next) => (.error fault, next)

instance : Monad (AsyncM Fault World) where
  pure := AsyncM.pure
  bind := AsyncM.bind

def raise (fault : Fault) : AsyncM Fault World Value :=
  fun world => (.error fault, world)

/-- One await under a plan. -/
def await
    (plan : Point → Disposition Fault) (point : Point)
    (effect : World → World) : AsyncM Fault World Unit :=
  fun world =>
    match plan point with
    | .completes => (.ok (), effect world)
    | .failsBefore fault => (.error fault, world)
    | .failsAfter fault => (.error fault, effect world)

/-- `try: body; except ...: handler`, for the faults in `caught`. -/
def tryExcept
    (caught : Fault → Bool) (body : AsyncM Fault World Value)
    (handler : Fault → AsyncM Fault World Value) :
    AsyncM Fault World Value :=
  fun world =>
    match body world with
    | (.ok value, next) => (.ok value, next)
    | (.error fault, next) =>
        if caught fault then handler fault next else (.error fault, next)

/-- `async with`: the exit is awaited however the body ends, and a fault of
the exit replaces the one of the body. -/
def asyncWith
    (exit : AsyncM Fault World Unit) (body : AsyncM Fault World Value) :
    AsyncM Fault World Value :=
  fun world =>
    match exit (body world).2 with
    | (.ok _, next) => ((body world).1, next)
    | (.error fault, next) => (.error fault, next)

/-! ## When a computation returns -/

variable {world next : World}

@[simp] theorem pure_eq_ok {value result : Value} :
    (pure value : AsyncM Fault World Value) world = (.ok result, next) ↔
      value = result ∧ world = next := by
  change ((.ok value, world) : Except Fault Value × World) = _ ↔ _
  simp

@[simp] theorem bind_eq_ok
    {first : AsyncM Fault World Value}
    {rest : Value → AsyncM Fault World Other} {result : Other} :
    (first >>= rest) world = (.ok result, next) ↔
      ∃ value middle, first world = (.ok value, middle) ∧
        rest value middle = (.ok result, next) := by
  change AsyncM.bind first rest world = _ ↔ _
  unfold AsyncM.bind
  cases hfirst : first world with
  | mk outcome middle =>
    cases outcome with
    | ok value => simp
    | error fault => simp

@[simp] theorem raise_eq_ok {fault : Fault} {result : Value} :
    (raise fault : AsyncM Fault World Value) world = (.ok result, next) ↔
      False := by
  simp [raise]

@[simp] theorem await_eq_ok
    {plan : Point → Disposition Fault} {point : Point}
    {effect : World → World} {result : Unit} :
    await plan point effect world = (.ok result, next) ↔
      plan point = .completes ∧ effect world = next := by
  unfold await
  cases plan point <;> simp

@[simp] theorem tryExcept_eq_ok
    {caught : Fault → Bool} {body : AsyncM Fault World Value}
    {handler : Fault → AsyncM Fault World Value} {result : Value} :
    tryExcept caught body handler world = (.ok result, next) ↔
      body world = (.ok result, next) ∨
        ∃ fault middle, body world = (.error fault, middle) ∧
          caught fault = true ∧ handler fault middle = (.ok result, next) := by
  unfold tryExcept
  cases hbody : body world with
  | mk outcome middle =>
    cases outcome with
    | ok value => simp
    | error fault =>
      by_cases hcaught : caught fault = true
      · simp [hcaught]
      · simp [hcaught]

@[simp] theorem asyncWith_eq_ok
    {exit : AsyncM Fault World Unit} {body : AsyncM Fault World Value}
    {result : Value} :
    asyncWith exit body world = (.ok result, next) ↔
      ∃ middle, body world = (.ok result, middle) ∧
        exit middle = (.ok (), next) := by
  unfold asyncWith
  cases hbody : body world with
  | mk outcome middle =>
    cases hexit : exit middle with
    | mk ended closed =>
      cases ended with
      | ok value => simp [hexit]
      | error fault => simp [hexit]

/-! ## The world a computation leaves -/

theorem bind_of_ok
    {first : AsyncM Fault World Value}
    {rest : Value → AsyncM Fault World Other} {value : Value}
    (hfirst : first world = (.ok value, next)) :
    (first >>= rest) world = rest value next := by
  change AsyncM.bind first rest world = _
  simp [AsyncM.bind, hfirst]

theorem bind_of_error
    {first : AsyncM Fault World Value}
    {rest : Value → AsyncM Fault World Other} {fault : Fault}
    (hfirst : first world = (.error fault, next)) :
    (first >>= rest) world = (.error fault, next) := by
  change AsyncM.bind first rest world = _
  simp [AsyncM.bind, hfirst]

theorem bind_await
    {plan : Point → Disposition Fault} {point : Point}
    {effect : World → World} {rest : Unit → AsyncM Fault World Other}
    (hplan : plan point = .completes) :
    (await plan point effect >>= rest) world = rest () (effect world) :=
  bind_of_ok (await_eq_ok.mpr ⟨hplan, rfl⟩)

theorem bind_of_not_ok
    {first : AsyncM Fault World Value}
    {rest : Value → AsyncM Fault World Other}
    (hfirst : ∀ value middle, first world ≠ (.ok value, middle)) :
    ((first >>= rest) world).2 = (first world).2 := by
  change (AsyncM.bind first rest world).2 = _
  unfold AsyncM.bind
  cases hrun : first world with
  | mk outcome middle =>
    cases outcome with
    | ok value => exact absurd hrun (hfirst value middle)
    | error fault => rfl

@[simp] theorem bind_pure_world
    {first : AsyncM Fault World Value} {value : Value → Other} :
    ((first >>= fun result =>
        (pure (value result) : AsyncM Fault World Other)) world).2 =
      (first world).2 := by
  change (AsyncM.bind first _ world).2 = _
  unfold AsyncM.bind
  cases hrun : first world with
  | mk outcome middle => cases outcome <;> rfl

@[simp] theorem bind_raise_world
    {first : AsyncM Fault World Value} {fault : Fault} :
    ((first >>= fun _ => (raise fault : AsyncM Fault World Other)) world).2 =
      (first world).2 := by
  change (AsyncM.bind first _ world).2 = _
  unfold AsyncM.bind
  cases hrun : first world with
  | mk outcome middle => cases outcome <;> rfl

/-- A handler which only logs. -/
@[simp] theorem tryExcept_pure_world
    {caught : Fault → Bool} {body : AsyncM Fault World Value}
    {value : Fault → Value} :
    (tryExcept caught body
        (fun fault => (pure (value fault) : AsyncM Fault World Value))
        world).2 = (body world).2 := by
  unfold tryExcept
  cases hrun : body world with
  | mk outcome middle =>
    cases outcome with
    | ok value => rfl
    | error fault =>
      by_cases hcaught : caught fault = true
      · simp only [hcaught, if_true]
        rfl
      · simp [hcaught]

theorem tryExcept_of_error
    {caught : Fault → Bool} {body : AsyncM Fault World Value}
    {handler : Fault → AsyncM Fault World Value} {fault : Fault}
    (hbody : body world = (.error fault, next))
    (hcaught : caught fault = true) :
    tryExcept caught body handler world = handler fault next := by
  simp [tryExcept, hbody, hcaught]

theorem await_of_executes
    {plan : Point → Disposition Fault} {point : Point}
    {effect : World → World} (hexecutes : (plan point).executes = true) :
    (await plan point effect world).2 = effect world := by
  unfold await
  cases hplan : plan point with
  | completes => rfl
  | failsBefore fault => simp [hplan, Disposition.executes] at hexecutes
  | failsAfter fault => rfl

theorem await_of_not_executes
    {plan : Point → Disposition Fault} {point : Point}
    {effect : World → World} (hnot : (plan point).executes = false) :
    (await plan point effect world).2 = world := by
  unfold await
  cases hplan : plan point with
  | completes => simp [hplan, Disposition.executes] at hnot
  | failsBefore fault => rfl
  | failsAfter fault => simp [hplan, Disposition.executes] at hnot

theorem tryExcept_of_ok
    {caught : Fault → Bool} {body : AsyncM Fault World Value}
    {handler : Fault → AsyncM Fault World Value} {value : Value}
    (hbody : body world = (.ok value, next)) :
    tryExcept caught body handler world = (.ok value, next) := by
  simp [hbody]

/-! ## What a computation preserves -/

/-- However the computation ends, the world it leaves satisfies `inv` if the
world it started from did. -/
def Keeps (inv : World → Prop) (body : AsyncM Fault World Value) : Prop :=
  ∀ world, inv world → inv (body world).2

namespace Keeps

variable {inv : World → Prop}

theorem pure (value : Value) :
    Keeps inv (Pure.pure value : AsyncM Fault World Value) :=
  fun _ hinv => hinv

theorem raise (fault : Fault) :
    Keeps inv (AsyncM.raise fault : AsyncM Fault World Value) :=
  fun _ hinv => hinv

theorem await
    {plan : Point → Disposition Fault} {point : Point}
    {effect : World → World}
    (heffect : ∀ world, inv world → inv (effect world)) :
    Keeps inv (AsyncM.await plan point effect) := by
  intro world hinv
  unfold AsyncM.await
  cases plan point with
  | completes => exact heffect world hinv
  | failsBefore fault => exact hinv
  | failsAfter fault => exact heffect world hinv

/-- What the first part leaves is kept by the rest. -/
theorem bind_after
    (inv : World → Prop)
    {first : AsyncM Fault World Value}
    {rest : Value → AsyncM Fault World Other}
    (hfirst : inv (first world).2) (hrest : ∀ value, Keeps inv (rest value)) :
    inv ((first >>= rest) world).2 := by
  change inv (AsyncM.bind first rest world).2
  unfold AsyncM.bind
  cases hrun : first world with
  | mk outcome middle =>
    rw [hrun] at hfirst
    cases outcome with
    | ok value => exact hrest value middle hfirst
    | error fault => exact hfirst

theorem bind
    {first : AsyncM Fault World Value}
    {rest : Value → AsyncM Fault World Other}
    (hfirst : Keeps inv first) (hrest : ∀ value, Keeps inv (rest value)) :
    Keeps inv (first >>= rest) :=
  fun world hinv => bind_after inv (hfirst world hinv) hrest

theorem tryExcept_after
    (inv : World → Prop)
    {caught : Fault → Bool} {body : AsyncM Fault World Value}
    {handler : Fault → AsyncM Fault World Value}
    (hbody : inv (body world).2) (hhandler : ∀ fault, Keeps inv (handler fault)) :
    inv (AsyncM.tryExcept caught body handler world).2 := by
  unfold AsyncM.tryExcept
  cases hrun : body world with
  | mk outcome middle =>
    rw [hrun] at hbody
    cases outcome with
    | ok value => exact hbody
    | error fault =>
      by_cases hcaught : caught fault = true
      · simpa [hcaught] using hhandler fault middle hbody
      · simpa [hcaught] using hbody

theorem tryExcept
    {caught : Fault → Bool} {body : AsyncM Fault World Value}
    {handler : Fault → AsyncM Fault World Value}
    (hbody : Keeps inv body) (hhandler : ∀ fault, Keeps inv (handler fault)) :
    Keeps inv (AsyncM.tryExcept caught body handler) :=
  fun world hinv => tryExcept_after inv (hbody world hinv) hhandler

theorem asyncWith_after
    (inv : World → Prop)
    {exit : AsyncM Fault World Unit} {body : AsyncM Fault World Value}
    (hbody : inv (body world).2) (hexit : Keeps inv exit) :
    inv (AsyncM.asyncWith exit body world).2 := by
  have hclosed := hexit _ hbody
  unfold AsyncM.asyncWith
  cases hrun : exit (body world).2 with
  | mk outcome closed =>
    rw [hrun] at hclosed
    cases outcome with
    | ok value => exact hclosed
    | error fault => exact hclosed

theorem asyncWith
    {exit : AsyncM Fault World Unit} {body : AsyncM Fault World Value}
    (hbody : Keeps inv body) (hexit : Keeps inv exit) :
    Keeps inv (AsyncM.asyncWith exit body) :=
  fun world hinv => asyncWith_after inv (hbody world hinv) hexit

end Keeps

end AsyncM

end NotifyHub
