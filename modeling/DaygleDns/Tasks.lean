import Mathlib.Tactic.Common

/-! Programs that work on a shared state by atomic calls. Between two calls of a
task the state is anybody's. -/
namespace DaygleDns

/-- `call` changes the state, and goes on with what it read there before. -/
inductive Task (σ α : Type) where
  | done (a : α)
  | call (write : σ → σ) (next : σ → Task σ α)

namespace Task

variable {σ α β : Type}

/-- A task of one call. -/
def perform (op : σ → α × σ) : Task σ α := .call (fun s => (op s).2) fun s => .done (op s).1

def bind (task : Task σ α) (f : α → Task σ β) : Task σ β :=
  match task with
  | .done a => f a
  | .call write next => .call write fun s => (next s).bind f

instance : Monad (Task σ) where
  pure := .done
  bind := .bind

def isDone : Task σ α → Bool
  | .done _ => true
  | .call _ _ => false

/-- The task by itself, without interruption. -/
def run : Task σ α → σ → α × σ
  | .done a, s => (a, s)
  | .call write next, s => (next s).run (write s)

/-- One task after the other, for every element of a list. -/
def forEach (f : α → Task σ Unit) : List α → Task σ Unit
  | [] => .done ()
  | a :: rest => do
      f a
      forEach f rest

/-- Whether `f` answers `true` for every element, as far as it has to be asked. -/
def all (f : α → Task σ Bool) : List α → Task σ Bool
  | [] => .done true
  | a :: rest => do
      if ← f a then all f rest else return false

@[simp] theorem run_pure (a : α) (s : σ) : (pure a : Task σ α).run s = (a, s) := rfl

@[simp] theorem run_done (a : α) (s : σ) : (done a : Task σ α).run s = (a, s) := rfl

@[simp] theorem run_perform (op : σ → α × σ) (s : σ) : (perform op).run s = op s := rfl

@[simp] theorem run_bind (task : Task σ α) (f : α → Task σ β) (s : σ) :
    (task >>= f).run s = (f (task.run s).1).run (task.run s).2 := by
  induction task generalizing s with
  | done a => rfl
  | call write next ih => exact ih s (write s)

theorem run_forEach (f : α → Task σ Unit) (step : σ → α → σ) (h : ∀ a s, (f a).run s = ((), step s a))
    (items : List α) (s : σ) : (forEach f items).run s = ((), items.foldl step s) := by
  induction items generalizing s with
  | nil => rfl
  | cons a items ih =>
    simp only [forEach, run_bind, h, List.foldl_cons]
    exact ih (step s a)

theorem run_all (f : α → Task σ Bool) (test : σ → α → Bool) (h : ∀ a s, (f a).run s = (test s a, s))
    (items : List α) (s : σ) : (all f items).run s = (items.all (test s), s) := by
  induction items with
  | nil => rfl
  | cons a items ih =>
    simp only [all, run_bind, h, List.all_cons]
    cases test s a with
    | true => exact ih
    | false => rfl

/-- Whatever happens between the calls, a result is good. -/
def Ends (good : α → Prop) : Task σ α → Prop
  | .done a => good a
  | .call _ next => ∀ s, (next s).Ends good

theorem Ends.mono {first second : α → Prop} {task : Task σ α} (hfirst : task.Ends first)
    (h : ∀ a, first a → second a) : task.Ends second := by
  induction task with
  | done a => exact h a hfirst
  | call write next ih => exact fun s => ih s (hfirst s)

theorem ends_bind {good : β → Prop} {f : α → Task σ β} {task : Task σ α} (h : task.Ends fun a => (f a).Ends good) :
    (task >>= f).Ends good := by
  induction task with
  | done a => exact h
  | call write next ih => exact fun s => ih s (h s)

theorem ends_of_forall {good : α → Prop} (h : ∀ a, good a) (task : Task σ α) : task.Ends good := by
  induction task with
  | done a => exact h a
  | call write next ih => exact fun s => ih s

/-- Where the rest of a program ends well, so does the whole. -/
theorem ends_bind_of_forall {good : β → Prop} {f : α → Task σ β} (h : ∀ a, (f a).Ends good) (task : Task σ α) :
    (task >>= f).Ends good :=
  ends_bind (ends_of_forall h task)

end Task

end DaygleDns
