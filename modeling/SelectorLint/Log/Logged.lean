import SelectorLint.Log.Event

/-!
# Values with their log

A computation that logs gives its value and its events in order. The value never
depends on the events: the value of a sequence of steps comes from the values of the
steps, and the value of a fold is the fold of the values.
-/

namespace SelectorLint.Log

/-- A value, and the events of its computation in order. -/
@[ext]
structure Logged (α : Type) where
  /-- What was computed. -/
  value : α
  /-- What was logged on the way. -/
  log : List Event := []

namespace Logged

/-- The second step is taken with the value of the first, and its events follow. -/
instance : Monad Logged where
  pure value := ⟨value, []⟩
  bind first next := ⟨(next first.value).value, first.log ++ (next first.value).log⟩

/-- Logs one event. -/
def note (event : Event) : Logged Unit := ⟨(), [event]⟩

/-- The events that a threshold shows. -/
def shown (logged : Logged α) (threshold : Threshold) : List Event :=
  logged.log.filter fun event => threshold.shows event.level

/-- A value by itself is the value. -/
@[simp]
theorem value_pure (value : α) : (pure value : Logged α).value = value := rfl

/-- The value of two steps is that of the second, taken with the value of the first. -/
@[simp]
theorem value_bind (first : Logged α) (next : α → Logged β) :
    (first >>= next).value = (next first.value).value := rfl

/-- A value by itself logs nothing. -/
@[simp]
theorem log_pure (value : α) : (pure value : Logged α).log = [] := rfl

/-- Two steps log their events one after the other. -/
@[simp]
theorem log_bind (first : Logged α) (next : α → Logged β) :
    (first >>= next).log = first.log ++ (next first.value).log := rfl

/-- Logging is sequential: grouping the steps differently changes neither the value nor
    the order of the events. -/
instance : LawfulMonad Logged :=
  LawfulMonad.mk' Logged
    (fun logged => Logged.ext rfl (List.append_nil logged.log))
    (fun _ _ => rfl)
    (fun first next last => Logged.ext rfl
      (List.append_assoc first.log (next first.value).log (last (next first.value).value).log))

/-- The value of a fold is the fold of the values. -/
theorem value_foldlM (step : β → α → Logged β) (start : β) (items : List α) :
    (items.foldlM step start).value =
      items.foldl (fun state item => (step state item).value) start := by
  induction items generalizing start with
  | nil => rfl
  | cons item rest inductionHypothesis =>
    rw [List.foldlM_cons, value_bind, inductionHypothesis, List.foldl_cons]

end Logged

end SelectorLint.Log
