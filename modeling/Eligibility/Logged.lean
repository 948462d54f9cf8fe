import Eligibility.Event

namespace Eligibility

/-- An answer with the events reported on the way to it, the earliest first. -/
structure Logged (α : Type) where
  answer : α
  events : List Event

namespace Logged

variable {α β : Type}

instance : Monad Logged where
  pure a := ⟨a, []⟩
  bind x f := ⟨(f x.answer).answer, x.events ++ (f x.answer).events⟩

def emit (e : Event) : Logged Unit := ⟨(), [e]⟩

def refuse (e : Event) : Logged Bool := do
  emit e
  return false

@[ext] theorem ext {x y : Logged α} (ha : x.answer = y.answer) (he : x.events = y.events) :
    x = y := by
  cases x
  cases y
  simp_all

@[simp] theorem answer_pure (a : α) : (pure a : Logged α).answer = a := rfl

@[simp] theorem events_pure (a : α) : (pure a : Logged α).events = [] := rfl

@[simp] theorem answer_bind (x : Logged α) (f : α → Logged β) :
    (x >>= f).answer = (f x.answer).answer := rfl

@[simp] theorem events_bind (x : Logged α) (f : α → Logged β) :
    (x >>= f).events = x.events ++ (f x.answer).events := rfl

@[simp] theorem answer_map (g : α → β) (x : Logged α) : (g <$> x).answer = g x.answer := rfl

@[simp] theorem events_map (g : α → β) (x : Logged α) : (g <$> x).events = x.events :=
  List.append_nil _

@[simp] theorem answer_emit (e : Event) : (emit e).answer = () := rfl

@[simp] theorem events_emit (e : Event) : (emit e).events = [e] := rfl

@[simp] theorem answer_refuse (e : Event) : (refuse e).answer = false := rfl

@[simp] theorem events_refuse (e : Event) : (refuse e).events = [e] := rfl

instance : LawfulMonad Logged :=
  .mk' Logged (fun x => by ext1 <;> simp) (fun a f => by ext1 <;> simp)
    (fun x f g => by ext1 <;> simp)

end Logged

end Eligibility
