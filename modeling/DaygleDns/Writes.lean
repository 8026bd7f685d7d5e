import Mathlib.Data.List.Induction
import Mathlib.Data.List.Perm.Basic

/-! Items that are written to tables one after another, each under its key: what the
tables hold then, and when that is the same for every order of the items. -/
namespace DaygleDns

structure Writes (σ α κ ν : Type) [DecidableEq κ] where
  step : σ → α → σ
  get : σ → κ → Option ν
  /-- Where an item is written, if anywhere. -/
  key : α → Option κ
  value : α → ν
  get_step : ∀ state item k, get (step state item) k = if key item = some k then some (value item) else get state k

namespace Writes

variable {σ α κ ν : Type} [DecidableEq κ] (writes : Writes σ α κ ν)

def run (items : List α) (state : σ) : σ := items.foldl writes.step state

/-- Two items of one key have one value. -/
def Agree (items : List α) : Prop :=
  ∀ first ∈ items, ∀ second ∈ items, ∀ k, writes.key first = some k → writes.key second = some k →
    writes.value first = writes.value second

theorem run_append (items : List α) (item : α) (state : σ) :
    writes.run (items ++ [item]) state = writes.step (writes.run items state) item := by
  simp [run]

/-- A key that no item has keeps what it held. -/
theorem get_run_of_not_written {items : List α} {k : κ} (h : ∀ item ∈ items, writes.key item ≠ some k) (state : σ) :
    writes.get (writes.run items state) k = writes.get state k := by
  induction items using List.reverseRecOn with
  | nil => rfl
  | append_singleton items item ih =>
    rw [run_append, writes.get_step, if_neg (h item (by simp))]
    exact ih fun other hother => h other (List.mem_append_left _ hother)

/-- A key that some item has holds the value of the last one. -/
theorem get_run_of_written {items : List α} {k : κ} (h : ∃ item ∈ items, writes.key item = some k) (state : σ) :
    ∃ item ∈ items, writes.key item = some k ∧ writes.get (writes.run items state) k = some (writes.value item) := by
  induction items using List.reverseRecOn with
  | nil => simp at h
  | append_singleton items last ih =>
    rw [run_append, writes.get_step]
    by_cases hlast : writes.key last = some k
    · exact ⟨last, by simp, hlast, if_pos hlast⟩
    · obtain ⟨item, hitem, hkey⟩ := h
      have hmem : item ∈ items := by
        obtain hmem | heq := List.mem_append.mp hitem
        · exact hmem
        · rw [List.mem_singleton.mp heq] at hkey
          exact absurd hkey hlast
      obtain ⟨found, hfound, hfoundKey, hget⟩ := ih ⟨item, hmem, hkey⟩
      exact ⟨found, List.mem_append_left _ hfound, hfoundKey, by rw [if_neg hlast, hget]⟩

theorem get_run_last {items : List α} {item : α} {k : κ} (h : writes.key item = some k) (state : σ) :
    writes.get (writes.run (items ++ [item]) state) k = some (writes.value item) := by
  rw [run_append, writes.get_step, if_pos h]

/-- Any item can come last. -/
theorem exists_last {items : List α} {item : α} (h : item ∈ items) : ∃ front, (front ++ [item]).Perm items := by
  obtain ⟨before, after, rfl⟩ := List.append_of_mem h
  refine ⟨before ++ after, ?_⟩
  rw [List.append_assoc]
  exact List.Perm.append_left before List.perm_append_comm

/-- Every order of the items gives the same tables exactly when items of one key agree. -/
theorem same_iff_agree (items : List α) (state : σ) :
    (∀ first second, first.Perm items → second.Perm items →
        ∀ k, writes.get (writes.run first state) k = writes.get (writes.run second state) k) ↔
      writes.Agree items := by
  constructor
  · intro h first hfirst second hsecond k hfirstKey hsecondKey
    obtain ⟨before, hbefore⟩ := exists_last hfirst
    obtain ⟨other, hother⟩ := exists_last hsecond
    have hsame := h _ _ hbefore hother k
    rw [writes.get_run_last hfirstKey, writes.get_run_last hsecondKey] at hsame
    exact Option.some.inj hsame
  · intro h first second hfirst hsecond k
    by_cases hwritten : ∃ item ∈ items, writes.key item = some k
    · obtain ⟨item, hitem, hkey⟩ := hwritten
      obtain ⟨a, ha, haKey, hget⟩ := writes.get_run_of_written ⟨item, hfirst.mem_iff.mpr hitem, hkey⟩ state
      obtain ⟨b, hb, hbKey, hget'⟩ := writes.get_run_of_written ⟨item, hsecond.mem_iff.mpr hitem, hkey⟩ state
      rw [hget, hget', h a (hfirst.mem_iff.mp ha) b (hsecond.mem_iff.mp hb) k haKey hbKey]
    · have hnone : ∀ {order : List α}, order.Perm items → ∀ item ∈ order, writes.key item ≠ some k :=
        fun horder item hitem hkey => hwritten ⟨item, horder.mem_iff.mp hitem, hkey⟩
      rw [writes.get_run_of_not_written (hnone hfirst), writes.get_run_of_not_written (hnone hsecond)]

end Writes

end DaygleDns
