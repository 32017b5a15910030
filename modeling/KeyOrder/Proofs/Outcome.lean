import KeyOrder.Fault
import Mathlib.Data.List.Forall2
import Mathlib.Tactic.Lemma

/-!
# Results that may be faults

An operation that gives a result has gone through in each of its steps.  The lemmas of this file
take such an operation apart, so that no later proof looks inside the type of results.
-/

namespace KeyOrder

namespace Outcome

variable {ε α β : Type}

lemma bind_eq_ok {x : Except ε α} {f : α → Except ε β} {b : β} :
    (x >>= f) = .ok b ↔ ∃ a, x = .ok a ∧ f a = .ok b := by
  cases x with
  | error e => simp [bind, Except.bind]
  | ok a => simp [bind, Except.bind]

lemma bind_eq_error {x : Except ε α} {f : α → Except ε β} {e : ε} :
    (x >>= f) = .error e ↔ x = .error e ∨ ∃ a, x = .ok a ∧ f a = .error e := by
  cases x with
  | error e' => simp [bind, Except.bind]
  | ok a => simp [bind, Except.bind]

lemma pure_eq_ok {a b : α} : (pure a : Except ε α) = .ok b ↔ a = b := by
  simp [pure, Except.pure]

lemma map_eq_ok {x : Except ε α} {f : α → β} {b : β} :
    x.map f = .ok b ↔ ∃ a, x = .ok a ∧ f a = b := by
  cases x with
  | error e => simp [Except.map]
  | ok a => simp [Except.map]

/-- A list goes through as a whole when each of its items does. -/
lemma mapM_eq_ok {f : α → Except ε β} {xs : List α} {ys : List β} :
    xs.mapM f = .ok ys ↔ List.Forall₂ (fun x y => f x = .ok y) xs ys := by
  induction xs generalizing ys with
  | nil => rw [List.mapM_nil, pure_eq_ok, List.forall₂_nil_left_iff, eq_comm]
  | cons x xs ih =>
    simp only [List.mapM_cons, bind_eq_ok, pure_eq_ok, ih]
    constructor
    · rintro ⟨y, hy, zs, hzs, rfl⟩
      exact .cons hy hzs
    · rintro (_ | ⟨hy, hzs⟩)
      exact ⟨_, hy, _, hzs, rfl⟩

lemma mapM_append_eq_ok {f : α → Except ε β} {xs xs' : List α} {ys ys' : List β}
    (h : xs.mapM f = .ok ys) (h' : xs'.mapM f = .ok ys') :
    (xs ++ xs').mapM f = .ok (ys ++ ys') := by
  rw [List.mapM_append, h, h']
  rfl

lemma mapM_cons_eq_ok {f : α → Except ε β} {x : α} {xs : List α} {y : β} {ys : List β}
    (h : f x = .ok y) (h' : xs.mapM f = .ok ys) : (x :: xs).mapM f = .ok (y :: ys) :=
  mapM_eq_ok.2 (.cons h (mapM_eq_ok.1 h'))

lemma exists_of_mem_mapM {f : α → Except ε β} {xs : List α} {ys : List β} {y : β}
    (h : xs.mapM f = .ok ys) (hy : y ∈ ys) : ∃ x ∈ xs, f x = .ok y := by
  have hall := mapM_eq_ok.1 h
  clear h
  induction hall with
  | nil => exact absurd hy List.not_mem_nil
  | cons hhere _ ih =>
    rcases List.mem_cons.1 hy with rfl | hy
    · exact ⟨_, List.mem_cons_self .., hhere⟩
    · obtain ⟨x, hx, hfx⟩ := ih hy
      exact ⟨x, List.mem_cons_of_mem _ hx, hfx⟩

/-- In a list that goes through each item does. -/
lemma exists_of_mapM_eq_ok {f : α → Except ε β} {xs : List α} {ys : List β} {x : α}
    (h : xs.mapM f = .ok ys) (hx : x ∈ xs) : ∃ y, f x = .ok y := by
  have hall := mapM_eq_ok.1 h
  clear h
  induction hall with
  | nil => exact absurd hx List.not_mem_nil
  | cons hhere _ ih =>
    rcases List.mem_cons.1 hx with rfl | hx
    · exact ⟨_, hhere⟩
    · exact ih hx

/-- A list goes through when each of its items does. -/
lemma exists_mapM_eq_ok {f : α → Except ε β} {xs : List α} (h : ∀ x ∈ xs, ∃ y, f x = .ok y) :
    ∃ ys, xs.mapM f = .ok ys := by
  induction xs with
  | nil => exact ⟨[], rfl⟩
  | cons x xs ih =>
    obtain ⟨y, hy⟩ := h x (List.mem_cons_self ..)
    obtain ⟨ys, hys⟩ := ih fun z hz => h z (List.mem_cons_of_mem _ hz)
    exact ⟨y :: ys, mapM_cons_eq_ok hy hys⟩

lemma exists_of_toOption_map {x : Except ε α} {f : α → β} {y : β}
    (h : x.toOption.map f = some y) : ∃ a, x = .ok a ∧ f a = y := by
  cases x with
  | error e => cases h
  | ok a => exact ⟨a, rfl, Option.some_inj.1 h⟩

lemma ofDigits_eq_ok {x : Except TooManyDigits α} {a : α} :
    ofDigits x = .ok a ↔ x = .ok a := by
  cases x <;> simp [ofDigits]

lemma ofMerge_eq_ok {x : Except Edit.MergeError α} {a : α} :
    ofMerge x = .ok a ↔ x = .ok a := by
  cases x <;> simp [ofMerge]

lemma ofOptions_eq_ok {x : Except Options.Refusal α} {a : α} :
    ofOptions x = .ok a ↔ x = .ok a := by
  cases x <;> simp [ofOptions]

/-! ### The faults that an operation may end in -/

/-- An operation gives a result or one of some faults. -/
def FaultsIn (s : Fault → Prop) (x : Outcome α) : Prop := ∀ f, x = .error f → s f

variable {s : Fault → Prop}

lemma faultsIn_ok (a : α) : FaultsIn s (.ok a) := fun _ h => nomatch h

lemma faultsIn_pure (a : α) : FaultsIn s (pure a : Outcome α) := faultsIn_ok a

lemma faultsIn_error {f : Fault} (h : s f) : FaultsIn s (.error f : Outcome α) := by
  rintro _ ⟨⟩
  exact h

lemma FaultsIn.imp {x : Outcome α} (hx : FaultsIn s x) {t : Fault → Prop}
    (h : ∀ f, s f → t f) : FaultsIn t x := fun f hf => h f (hx f hf)

lemma FaultsIn.bind {x : Outcome α} {f : α → Outcome β} (hx : FaultsIn s x)
    (hf : ∀ a, x = .ok a → FaultsIn s (f a)) : FaultsIn s (x >>= f) := by
  cases x with
  | error e => exact faultsIn_error (hx e rfl)
  | ok a => exact hf a rfl

lemma FaultsIn.map {x : Outcome α} (hx : FaultsIn s x) (f : α → β) : FaultsIn s (x.map f) := by
  cases x with
  | error e => exact faultsIn_error (hx e rfl)
  | ok a => exact faultsIn_ok _

lemma FaultsIn.result_or_fault {x : Outcome α} (hx : FaultsIn s x) :
    (∃ a, x = .ok a) ∨ ∃ f, x = .error f ∧ s f := by
  cases x with
  | error e => exact .inr ⟨e, rfl, hx e rfl⟩
  | ok a => exact .inl ⟨a, rfl⟩

lemma faultsIn_mapM {f : α → Outcome β} {xs : List α} (h : ∀ x ∈ xs, FaultsIn s (f x)) :
    FaultsIn s (xs.mapM f) := by
  induction xs with
  | nil => exact faultsIn_pure _
  | cons x xs ih =>
    rw [List.mapM_cons]
    refine (h x (List.mem_cons_self ..)).bind fun y _ => ?_
    exact (ih fun z hz => h z (List.mem_cons_of_mem _ hz)).bind fun ys _ => faultsIn_pure _

end Outcome

end KeyOrder
