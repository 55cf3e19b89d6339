import AchCourier.Ingest.Error

/-!
# Independent steps

Files, processors and deletions are independent of each other: each one is tried, whatever became
of the ones before it, and all failures come out together.

## Main definitions

* `failuresOf` — the failures of the steps for all items, in order.
* `attemptAll` — one outcome for them.
-/

namespace AchCourier.Ingest

variable {α σ : Type}

/-- The state after the steps for all items, and the failures among them in order. -/
def failuresOf (step : α → σ → σ × Except Error Unit) : List α → σ → σ × List Error
  | [], s => (s, [])
  | a :: as, s =>
      match step a s with
      | (s, .ok ()) => failuresOf step as s
      | (s, .error e) =>
          let (s, es) := failuresOf step as s
          (s, e :: es)

/-- The state after the steps for all items, and one outcome for them. -/
def attemptAll (step : α → σ → σ × Except Error Unit) (items : List α) (s : σ) :
    σ × Except Error Unit :=
  let (s, es) := failuresOf step items s
  (s, Error.collect es)

@[simp] theorem failuresOf_nil (step : α → σ → σ × Except Error Unit) (s : σ) :
    failuresOf step [] s = (s, []) := rfl

@[simp] theorem attemptAll_nil (step : α → σ → σ × Except Error Unit) (s : σ) :
    attemptAll step [] s = (s, .ok ()) := rfl

end AchCourier.Ingest
