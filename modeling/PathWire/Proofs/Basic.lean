/-
What the proofs share.

A reader, a callback and a call of the builder are all steps on a state that end in an answer or
in an error.  What a sequence of two steps does follows from what the first one does, and if the
sequence ends well then so did both.  The tables of ids and of caches are both lists of entries
in which one entry is replaced by a new one at the end.
-/
import Mathlib

namespace PathWire

variable {ε σ α β : Type}

/-! ### Steps that may fail -/

namespace Step

theorem bind_ok {step : EStateM ε σ α} {next : α → EStateM ε σ β} {state after : σ} {answer : α}
    (h : step state = .ok answer after) : (step >>= next) state = next answer after := by
  simp only [bind, EStateM.bind, h]

theorem bind_error {step : EStateM ε σ α} {next : α → EStateM ε σ β} {state after : σ} {cause : ε}
    (h : step state = .error cause after) : (step >>= next) state = .error cause after := by
  simp only [bind, EStateM.bind, h]

theorem of_bind_ok {step : EStateM ε σ α} {next : α → EStateM ε σ β} {state final : σ} {answer : β}
    (h : (step >>= next) state = .ok answer final) :
    ∃ first after, step state = .ok first after ∧ next first after = .ok answer final := by
  cases hstep : step state with
  | ok first after =>
      rw [bind_ok hstep] at h
      exact ⟨first, after, rfl, h⟩
  | error cause after =>
      rw [bind_error hstep] at h
      cases h

section Adapted

variable {ε' : Type} {step : EStateM ε σ α} {wrap : ε → ε'} {state after : σ}

/-! A step whose causes are wrapped goes as before. -/

theorem adapt_ok {answer : α} :
    step.adaptExcept wrap state = .ok answer after ↔ step state = .ok answer after := by
  cases h : step state <;> simp [EStateM.adaptExcept, h]

theorem adapt_error {cause : ε} (h : step state = .error cause after) :
    step.adaptExcept wrap state = .error (wrap cause) after := by
  simp only [EStateM.adaptExcept, h]

end Adapted

/-- A step that keeps a property of the state, answers with what has `post`, and is refused for
causes of one kind only. -/
def Safe (kept : σ → Prop) (fair : ε → Prop) (step : EStateM ε σ α) (post : α → Prop) : Prop :=
  ∀ state, kept state → match step state with
    | .ok answer after => kept after ∧ post answer
    | .error cause after => kept after ∧ fair cause

namespace Safe

variable {kept : σ → Prop} {fair : ε → Prop} {step : EStateM ε σ α} {post : α → Prop}

theorem ok (h : Safe kept fair step post) {state after : σ} {answer : α} (hstate : kept state)
    (hstep : step state = .ok answer after) : kept after ∧ post answer := by
  have hresult := h state hstate
  rwa [hstep] at hresult

theorem error (h : Safe kept fair step post) {state after : σ} {cause : ε} (hstate : kept state)
    (hstep : step state = .error cause after) : kept after ∧ fair cause := by
  have hresult := h state hstate
  rwa [hstep] at hresult

theorem pure {answer : α} (h : post answer) : Safe kept fair (Pure.pure answer) post :=
  fun _ hstate => ⟨hstate, h⟩

theorem refuse {cause : ε} (h : fair cause) : Safe kept fair (throw cause) post :=
  fun _ hstate => ⟨hstate, h⟩

theorem look : Safe kept fair get kept := fun _ hstate => ⟨hstate, hstate⟩

theorem bind {next : α → EStateM ε σ β} {final : β → Prop} (hstep : Safe kept fair step post)
    (hnext : ∀ answer, post answer → Safe kept fair (next answer) final) :
    Safe kept fair (step >>= next) final := by
  intro state hstate
  cases hfirst : step state with
  | ok answer between =>
      obtain ⟨hbetween, hanswer⟩ := hstep.ok hstate hfirst
      rw [bind_ok hfirst]
      exact hnext answer hanswer between hbetween
  | error cause between =>
      rw [bind_error hfirst]
      exact hstep.error hstate hfirst

theorem imp {final : α → Prop} (hstep : Safe kept fair step post)
    (h : ∀ answer, post answer → final answer) : Safe kept fair step final := by
  intro state hstate
  cases hresult : step state with
  | ok answer after => exact (hstep.ok hstate hresult).imp_right (h answer)
  | error cause after => exact hstep.error hstate hresult

theorem map {f : α → β} {final : β → Prop} (hstep : Safe kept fair step post)
    (h : ∀ answer, post answer → final (f answer)) :
    Safe kept fair (do return f (← step)) final :=
  hstep.bind fun answer hanswer => pure (h answer hanswer)

/-- A refusal that is caught does no harm if what is done about it does none. -/
theorem rescue {handle : ε → EStateM ε σ α} (hstep : Safe kept fair step post)
    (hhandle : ∀ cause, Safe kept fair (handle cause) post) :
    Safe kept fair (tryCatch step handle) post := by
  intro state hstate
  cases hresult : step state with
  | ok answer after =>
      simp only [tryCatch, tryCatchThe, MonadExceptOf.tryCatch, EStateM.tryCatch, hresult]
      exact hstep.ok hstate hresult
  | error cause after =>
      obtain ⟨hafter, -⟩ := hstep.error hstate hresult
      simp only [tryCatch, tryCatchThe, MonadExceptOf.tryCatch, EStateM.tryCatch, hresult]
      exact hhandle cause after hafter

end Safe

/-- A step that is put together from basic ones and from refusals of its own. -/
inductive Composed (basic : ∀ α : Type, EStateM ε σ α → Prop) (own : ε → Prop) :
    ∀ {α : Type}, EStateM ε σ α → Prop
  | basic {α : Type} {step : EStateM ε σ α} (h : basic α step) : Composed basic own step
  | refuse {α : Type} {cause : ε} (h : own cause) :
      Composed basic own (throw cause : EStateM ε σ α)
  | bind {α β : Type} {step : EStateM ε σ α} {next : α → EStateM ε σ β}
      (hstep : Composed basic own step) (hnext : ∀ answer, Composed basic own (next answer)) :
      Composed basic own (step >>= next)
  | rescue {α : Type} {step : EStateM ε σ α} {handle : ε → EStateM ε σ α}
      (hstep : Composed basic own step) (hhandle : ∀ cause, Composed basic own (handle cause)) :
      Composed basic own (tryCatch step handle)

/-- **What is put together from safe steps is safe.** -/
theorem Composed.safe {basic : ∀ α : Type, EStateM ε σ α → Prop} {own : ε → Prop}
    {kept : σ → Prop} {fair : ε → Prop}
    (hbasic : ∀ {α : Type} {step : EStateM ε σ α}, basic α step →
      Safe kept fair step fun _ => True)
    (hown : ∀ cause, own cause → fair cause) {step : EStateM ε σ α}
    (h : Composed basic own step) : Safe kept fair step fun _ => True := by
  induction h with
  | basic h => exact hbasic h
  | refuse h => exact .refuse (hown _ h)
  | bind _ _ hstep hnext => exact hstep.bind fun answer _ => hnext answer
  | rescue _ _ hstep hhandle => exact hstep.rescue hhandle

end Step

namespace Result

@[simp]
theorem throw_ne_ok {cause : ε} {answer : α} : (throw cause : Except ε α) ≠ .ok answer := nofun

theorem bind_ok {first : Except ε α} {next : α → Except ε β} {answer : α}
    (h : first = .ok answer) : (first >>= next) = next answer := by
  rw [h]
  rfl

theorem of_bind_ok {first : Except ε α} {next : α → Except ε β} {answer : β}
    (h : (first >>= next) = .ok answer) :
    ∃ between, first = .ok between ∧ next between = .ok answer := by
  cases first with
  | ok between => exact ⟨between, rfl, h⟩
  | error cause => cases h

end Result

/-! ### Lists of entries -/

/-- An entry is found once it has replaced the one with its key; the others stay. -/
theorem lookup_replace {κ ν : Type} [BEq κ] [LawfulBEq κ] [DecidableEq κ]
    (entries : List (κ × ν)) (key : κ) (value : ν)
    (other : κ) :
    (entries.filter (fun entry => entry.1 != key) ++ [(key, value)]).lookup other =
      if other = key then some value else entries.lookup other := by
  have hmiss : ∀ {one two : κ}, one ≠ two → (one == two) = false := beq_eq_false_iff_ne.mpr
  induction entries with
  | nil =>
      by_cases hsame : other = key
      · simp [hsame]
      · simp [List.lookup, hmiss hsame, hsame]
  | cons entry rest ih =>
      obtain ⟨first, held⟩ := entry
      by_cases hfirst : first = key
      · subst hfirst
        by_cases hsame : other = first
        · simpa [hsame] using ih
        · simpa [List.lookup, hmiss hsame, hsame] using ih
      · by_cases hother : other = first
        · subst hother
          simp [hfirst]
        · simpa [hfirst, List.lookup, hmiss hother] using ih

end PathWire
