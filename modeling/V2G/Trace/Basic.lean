import V2G.Error.Failure
import V2G.Trace.Event

/-!
# Traced computations

A computation that may fail, with the events up to its end. What it computes does not hang
on the events: `outcome` of a sequence is that of its steps (`outcome_bind`).
-/

namespace V2G

structure Traced (α : Type) where
  events : List Event
  outcome : Except Failure α

namespace Traced

variable {α β : Type}

def andThen (t : Traced α) (f : α → Traced β) : Traced β :=
  match t.outcome with
  | .ok v =>
    let u := f v
    ⟨t.events ++ u.events, u.outcome⟩
  | .error e => ⟨t.events, .error e⟩

instance : Monad Traced where
  pure v := ⟨[], .ok v⟩
  bind := andThen

def emit (e : Event) : Traced Unit := ⟨[e], .ok ()⟩

def fail (e : Failure) : Traced α := ⟨[], .error e⟩

def error (e : MessageError) : Traced α := fail (.error e)

def misuse (m : Misuse) : Traced α := fail (.misuse m)

def ofExcept (o : Except Failure α) : Traced α := ⟨[], o⟩

theorem outcome_bind (t : Traced α) (f : α → Traced β) :
    (t >>= f).outcome = t.outcome.bind fun v => (f v).outcome := by
  show (andThen t f).outcome = _
  unfold andThen
  cases t.outcome <;> rfl

@[simp] theorem outcome_pure (v : α) : (pure v : Traced α).outcome = .ok v := rfl
@[simp] theorem outcome_emit (e : Event) : (emit e).outcome = .ok () := rfl
@[simp] theorem outcome_fail (e : Failure) : (fail e : Traced α).outcome = .error e := rfl
@[simp] theorem outcome_ofExcept (o : Except Failure α) : (ofExcept o).outcome = o := rfl

end Traced

end V2G
