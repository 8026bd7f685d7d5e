import Mathlib.Data.List.Basic

/-! Computations that may fail and whose writes to the state persist when they
do: what a step keeps, a loop keeps, whether or not it ends in a failure. -/
namespace DaygleDns

abbrev Persist (σ ε α : Type) := ExceptT ε (StateM σ) α

namespace Persist

variable {σ ε α β : Type}

def exec (m : Persist σ ε α) (state : σ) : Except ε α × σ := (ExceptT.run m).run state

/-- A write that cannot fail. -/
def write (change : σ → σ) : Persist σ ε Unit := fun state => (.ok (), change state)

def read (view : σ → α) : Persist σ ε α := fun state => (.ok (view state), state)

/-- A call that an outside failure can stop before it does anything. -/
def guarded (fault : Option ε) : Persist σ ε Unit := fun state =>
  match fault with
  | some e => (.error e, state)
  | none => (.ok (), state)

/-- A transaction, which an outside failure can stop: it commits its new state,
or fails and leaves the state alone. -/
def transact (fault : Option ε) (transaction : σ → Except ε σ) : Persist σ ε Unit := fun state =>
  match fault, transaction state with
  | some e, _ => (.error e, state)
  | none, .error e => (.error e, state)
  | none, .ok after => (.ok (), after)

/-- A result that is known, or a failure. -/
def result (outcome : Except ε α) : Persist σ ε α := fun state => (outcome, state)

@[simp] theorem exec_pure (a : α) (state : σ) :
    exec (pure a : Persist σ ε α) state = (.ok a, state) := rfl

@[simp] theorem exec_throw (e : ε) (state : σ) :
    exec (throw e : Persist σ ε α) state = (.error e, state) := rfl

@[simp] theorem exec_write (change : σ → σ) (state : σ) :
    exec (write change : Persist σ ε Unit) state = (.ok (), change state) := rfl

@[simp] theorem exec_read (view : σ → α) (state : σ) :
    exec (read view : Persist σ ε α) state = (.ok (view state), state) := rfl

theorem exec_bind (m : Persist σ ε α) (f : α → Persist σ ε β) (state : σ) :
    exec (m >>= f) state =
      match exec m state with
      | (.ok a, middle) => exec (f a) middle
      | (.error e, middle) => (.error e, middle) := by
  rcases hexec : exec m state with ⟨_ | a, middle⟩
  all_goals
    unfold exec at hexec ⊢
    rw [ExceptT.run_bind, StateT.run_bind]
    change (fun result => _) ((ExceptT.run m).run state) = _
    rw [hexec]
    rfl

theorem exec_transact (fault : Option ε) (transaction : σ → Except ε σ) (state : σ) :
    exec (transact fault transaction) state =
      match fault, transaction state with
      | some e, _ => (.error e, state)
      | none, .error e => (.error e, state)
      | none, .ok after => (.ok (), after) := rfl

theorem exec_transact_eq_ok {fault : Option ε} {transaction : σ → Except ε σ} {state after : σ}
    {u : Unit} : exec (transact fault transaction) state = (.ok u, after) ↔
      fault = none ∧ transaction state = .ok after := by
  rw [exec_transact]
  cases fault with
  | some e => simp
  | none => cases transaction state <;> simp

theorem exec_read_bind (view : σ → α) (f : α → Persist σ ε β) (state : σ) :
    exec (read view >>= f) state = exec (f (view state)) state := by
  rw [exec_bind]
  rfl

theorem exec_result_bind (outcome : Except ε α) (f : α → Persist σ ε β) (state : σ) :
    exec (result outcome >>= f) state =
      match outcome with
      | .ok a => exec (f a) state
      | .error e => (.error e, state) := by
  rw [exec_bind]
  cases outcome <;> rfl

theorem exec_guarded_bind (fault : Option ε) (f : Unit → Persist σ ε β) (state : σ) :
    exec (guarded fault >>= f) state =
      match fault with
      | some e => (.error e, state)
      | none => exec (f ()) state := by
  rw [exec_bind]
  cases fault <;> rfl

theorem exec_bind_eq_ok {m : Persist σ ε α} {f : α → Persist σ ε β} {state after : σ} {b : β} :
    exec (m >>= f) state = (.ok b, after) ↔
      ∃ a middle, exec m state = (.ok a, middle) ∧ exec (f a) middle = (.ok b, after) := by
  rw [exec_bind]
  rcases exec m state with ⟨_ | a, middle⟩ <;> simp

/-- From a state with `pre`, the computation leaves one with `post`, however it
ends. -/
def Leads (pre post : σ → Prop) (m : Persist σ ε α) : Prop :=
  ∀ state, pre state → post (exec m state).2

variable {pre inv : σ → Prop}

theorem keeps_pure (a : α) : Leads inv inv (pure a : Persist σ ε α) := fun _ h => h

theorem keeps_read (view : σ → α) : Leads inv inv (read view : Persist σ ε α) := fun _ h => h

theorem keeps_result (outcome : Except ε α) :
    Leads inv inv (result outcome : Persist σ ε α) := fun _ h => h

theorem keeps_guarded (fault : Option ε) : Leads inv inv (guarded fault : Persist σ ε Unit) := by
  intro state h
  cases fault <;> exact h

theorem leads_transact {fault : Option ε} {transaction : σ → Except ε σ}
    (hpre : ∀ state, pre state → inv state)
    (h : ∀ state after, pre state → transaction state = .ok after → inv after) :
    Leads pre inv (transact fault transaction) := by
  intro state hstate
  rw [exec_transact]
  cases fault with
  | some e => exact hpre state hstate
  | none =>
    cases htransaction : transaction state with
    | error e => exact hpre state hstate
    | ok after => exact h state after hstate htransaction

theorem leads_write {change : σ → σ} (h : ∀ state, pre state → inv (change state)) :
    Leads pre inv (write change : Persist σ ε Unit) := h

/-- The first part may fail, so it has to lead to `inv` by itself. -/
theorem Leads.bind {m : Persist σ ε α} {f : α → Persist σ ε β} (hm : Leads pre inv m)
    (hf : ∀ a, Leads inv inv (f a)) : Leads pre inv (m >>= f) := by
  intro state h
  have hmiddle := hm state h
  rw [exec_bind]
  rcases hexec : exec m state with ⟨_ | a, middle⟩
  · rw [hexec] at hmiddle
    exact hmiddle
  · rw [hexec] at hmiddle
    exact hf a middle hmiddle

/-- A first part that changes nothing hands `pre` on. -/
theorem Leads.before {m : Persist σ ε α} {f : α → Persist σ ε β}
    (hm : ∀ state, (exec m state).2 = state) (hpre : ∀ state, pre state → inv state)
    (hf : ∀ a, Leads pre inv (f a)) : Leads pre inv (m >>= f) := by
  intro state h
  have hmiddle := hm state
  rw [exec_bind]
  rcases hexec : exec m state with ⟨_ | a, middle⟩
  · rw [hexec] at hmiddle
    rw [← hmiddle] at h
    exact hpre middle h
  · rw [hexec] at hmiddle
    rw [← hmiddle] at h
    exact hf a middle h

theorem guarded_same (fault : Option ε) (state : σ) :
    (exec (guarded fault : Persist σ ε Unit) state).2 = state := by
  cases fault <;> rfl

theorem keeps_foldlM {γ : Type} {step : β → γ → Persist σ ε β} (items : List γ)
    (hstep : ∀ acc, ∀ item ∈ items, Leads inv inv (step acc item)) (acc : β) :
    Leads inv inv (items.foldlM step acc) := by
  induction items generalizing acc with
  | nil => exact keeps_pure acc
  | cons item items ih =>
    rw [List.foldlM_cons]
    apply (hstep acc item List.mem_cons_self).bind
    exact ih fun acc other hother => hstep acc other (List.mem_cons_of_mem _ hother)

/-- A loop that comes to its end has done what one of its steps does for good. -/
theorem foldlM_ensures {γ : Type} {step : β → γ → Persist σ ε β} {items : List γ} {item : γ}
    (hitem : item ∈ items)
    (hdone : ∀ acc state b after, exec (step acc item) state = (.ok b, after) → inv after)
    (hkeeps : ∀ acc, ∀ other ∈ items, Leads inv inv (step acc other)) {acc b : β} {state after : σ}
    (h : exec (items.foldlM step acc) state = (.ok b, after)) : inv after := by
  induction items generalizing acc state with
  | nil => simp at hitem
  | cons first items ih =>
    rw [List.foldlM_cons, exec_bind_eq_ok] at h
    rcases h with ⟨next, middle, hfirst, hrest⟩
    have hlater : ∀ acc, ∀ other ∈ items, Leads inv inv (step acc other) :=
      fun acc other hother => hkeeps acc other (List.mem_cons_of_mem _ hother)
    rcases List.mem_cons.mp hitem with rfl | hitem
    · have hall := keeps_foldlM items hlater next middle (hdone acc state next middle hfirst)
      rw [hrest] at hall
      exact hall
    · exact ih hitem hlater hrest

theorem exec_guarded_eq_ok {fault : Option ε} {state after : σ} {u : Unit} :
    exec (guarded fault : Persist σ ε Unit) state = (.ok u, after) ↔
      fault = none ∧ state = after := by
  cases fault with
  | none =>
    change ((Except.ok (), state) : Except ε Unit × σ) = _ ↔ _
    simp
  | some e =>
    change ((Except.error e, state) : Except ε Unit × σ) = _ ↔ _
    simp

/-! A write behind a call that may fail; what was read before it goes into the result. -/

theorem keeps_change {γ : Type} {fault : Option ε} {view : σ → α} {change : σ → σ} {out : α → γ}
    (h : ∀ state, inv state → inv (change state)) :
    Leads inv inv (do
      guarded fault
      let seen ← read view
      write change
      pure (out seen) : Persist σ ε γ) := by
  refine Leads.bind (keeps_guarded _) fun _ => Leads.bind (keeps_read _) fun seen => ?_
  exact Leads.bind (leads_write h) fun _ => keeps_pure _

theorem exec_change_eq_ok {γ : Type} {fault : Option ε} {view : σ → α} {change : σ → σ} {out : α → γ} {c : γ}
    {state after : σ}
    (h : exec (do
      guarded fault
      let seen ← read view
      write change
      pure (out seen) : Persist σ ε γ) state = (.ok c, after)) : after = change state := by
  rcases exec_bind_eq_ok.mp h with ⟨_, first, hguard, h⟩
  rcases exec_bind_eq_ok.mp h with ⟨_, second, hread, h⟩
  rcases exec_bind_eq_ok.mp h with ⟨_, third, hwrite, h⟩
  have hfirst := (exec_guarded_eq_ok.mp hguard).2
  have hsecond : first = second := congrArg Prod.snd hread
  have hthird : change second = third := congrArg Prod.snd hwrite
  have hafter : third = after := congrArg Prod.snd h
  rw [← hafter, ← hthird, ← hsecond, ← hfirst]

end Persist

end DaygleDns
