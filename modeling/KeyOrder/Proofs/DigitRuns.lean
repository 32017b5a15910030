import KeyOrder.Order.NaturalKey
import Mathlib.Data.List.SplitBy
import Mathlib.Tactic.Lemma

/-!
# Runs of digits

A name falls into its longest stretches, each of which is all digits or free of digits, and its
runs of digits are the stretches of the first kind.  Cutting a name at its runs goes through it from
the end instead.  The two agree, because a cut is determined by what it looks like: texts without
digits stand between runs, and only the first and the last text may be empty.

* `cut_join` and `join_cut`: a cut of this form is the cut of the name that it is put together to,
  and every name has one;
* `flatMap_stretches`: the stretches of a name are the parts of its cut;
* `NaturalKey.of_eq_ok`: a name has a natural key when its runs are within the limit.
-/

namespace KeyOrder

namespace Natural

/-! ### Stretches of a name -/

/-- Whether two code points are both digits or neither of them is. -/
def alike (c d : CodePoint) : Bool := isDigit c == isDigit d

/-- The longest stretches of a name that are all digits or free of digits. -/
def stretches (name : Name) : List CodePoints := name.splitBy alike

/-- The maximal runs of digits of a name, in order. -/
def digitRuns (name : Name) : List CodePoints :=
  (stretches name).filter fun s => s.any isDigit

/-- A text that holds no digit. -/
def DigitFree (t : Name) : Prop := ∀ c ∈ t, isDigit c = false

/-- A run of digits. -/
structure IsRun (ds : CodePoints) : Prop where
  ne_nil : ds ≠ []
  digits : ∀ d ∈ ds, isDigit d = true

lemma IsRun.any_isDigit {ds : CodePoints} (h : IsRun ds) : ds.any isDigit = true := by
  obtain ⟨d, hd⟩ := List.exists_mem_of_ne_nil ds h.ne_nil
  exact List.any_eq_true.2 ⟨d, hd, h.digits d hd⟩

lemma DigitFree.any_isDigit {t : Name} (h : DigitFree t) : t.any isDigit = false := by
  rw [List.any_eq_false]
  intro c hc
  simp [h c hc]

/-- Characters of one kind are a single stretch. -/
lemma stretches_of_forall {s : CodePoints} (hne : s ≠ []) {b : Bool}
    (h : ∀ c ∈ s, isDigit c = b) : stretches s = [s] := by
  refine List.splitBy_of_isChain hne (List.Pairwise.isChain ?_)
  refine List.pairwise_of_forall_mem_list fun c hc d hd => ?_
  simp [alike, h c hc, h d hd]

/-! ### Cuts that look like the cut of a name -/

/-- Runs of digits, each with the text after it, which holds no digit.  Only the last text may be
empty. -/
def Alternating : List (CodePoints × Name) → Prop
  | [] => True
  | (ds, t) :: rs => IsRun ds ∧ DigitFree t ∧ (t = [] → rs = []) ∧ Alternating rs

/-- A cut with texts and runs in turn. -/
structure Cut.Exact (k : Cut) : Prop where
  text : DigitFree k.text
  runs : Alternating k.runs

/-- Runs and texts put back together. -/
def joinRuns (rs : List (CodePoints × Name)) : Name := rs.flatMap fun r => r.1 ++ r.2

/-- A cut put back together. -/
def Cut.join (k : Cut) : Name := k.text ++ joinRuns k.runs

@[simp] lemma joinRuns_nil : joinRuns [] = [] := rfl

@[simp] lemma joinRuns_cons (r : CodePoints × Name) (rs : List (CodePoints × Name)) :
    joinRuns (r :: rs) = r.1 ++ (r.2 ++ joinRuns rs) := by
  simp [joinRuns]

lemma cut_cons (c : CodePoint) (name : Name) : cut (c :: name) = (cut name).cons c := rfl

lemma Cut.join_cons (k : Cut) (c : CodePoint) : (k.cons c).join = c :: k.join := by
  unfold Cut.cons
  split
  · split <;> simp_all [Cut.join]
  · rfl

lemma Cut.Exact.cons {k : Cut} (h : k.Exact) (c : CodePoint) : (k.cons c).Exact := by
  obtain ⟨text, runs⟩ := k
  obtain ⟨htext, hruns⟩ := h
  unfold Cut.cons
  split
  · rename_i hc
    split
    · -- the digit joins the run at the front
      rename_i ds t rs _ hrs
      obtain rfl : runs = (ds, t) :: rs := hrs
      obtain ⟨hds, ht⟩ := hruns
      refine ⟨by simp [DigitFree], ⟨by simp, ?_⟩, ht⟩
      simpa [hc] using hds.digits
    · -- the digit is a run of its own
      rename_i hne
      refine ⟨by simp [DigitFree], ⟨by simp, by simp [hc]⟩, htext, ?_, hruns⟩
      rintro (rfl : text = [])
      cases runs with
      | nil => rfl
      | cons r rs => exact (hne r.1 r.2 rs rfl rfl).elim
  · rename_i hc
    refine ⟨?_, hruns⟩
    simpa [DigitFree, hc] using htext

/-- The cut of a name has texts and runs in turn. -/
lemma exact_cut (name : Name) : (cut name).Exact := by
  induction name with
  | nil => exact ⟨by simp [cut, DigitFree], trivial⟩
  | cons c name ih => exact ih.cons c

@[simp] lemma join_cut (name : Name) : (cut name).join = name := by
  induction name with
  | nil => rfl
  | cons c name ih => rw [cut_cons, Cut.join_cons, ih]

/-- A text without digits in front goes to the first text. -/
lemma cut_text_append {t : Name} (h : DigitFree t) (name : Name) :
    cut (t ++ name) = ⟨t ++ (cut name).text, (cut name).runs⟩ := by
  induction t with
  | nil => rfl
  | cons c t ih =>
    have hc : isDigit c = false := h c (by simp)
    have ht : DigitFree t := fun d hd => h d (by simp [hd])
    rw [List.cons_append, cut_cons, ih ht, Cut.cons]
    simp [hc]

/-- A run in front of a name that does not go on with digits is the first run. -/
lemma cut_run_append {ds : CodePoints} (h : IsRun ds) {name : Name}
    (hname : (cut name).text = [] → (cut name).runs = []) :
    cut (ds ++ name) = ⟨[], (ds, (cut name).text) :: (cut name).runs⟩ := by
  obtain ⟨hne, hdigits⟩ := h
  induction ds with
  | nil => exact absurd rfl hne
  | cons d ds ih =>
    have hd : isDigit d = true := hdigits d (by simp)
    rw [List.cons_append, cut_cons]
    cases ds with
    | nil =>
      rw [List.nil_append, Cut.cons, if_pos hd]
      split
      · -- a run at the very front of the name is excluded
        rename_i htext hruns
        rw [hname htext] at hruns
        cases hruns
      · rfl
    | cons e ds =>
      rw [ih (by simp) (fun c hc => hdigits c (by simp [hc])), Cut.cons, if_pos hd]

/-- A cut with texts and runs in turn is the cut of what it is put together to. -/
lemma cut_join {k : Cut} (h : k.Exact) : cut k.join = k := by
  have hruns : ∀ rs : List (CodePoints × Name), Alternating rs → cut (joinRuns rs) = ⟨[], rs⟩ := by
    intro rs hrs
    induction rs with
    | nil => rfl
    | cons r rs ih =>
      obtain ⟨hds, ht, hnil, hrest⟩ := hrs
      have hcut : cut (r.2 ++ joinRuns rs) = ⟨r.2, rs⟩ := by
        rw [cut_text_append ht, ih hrest, List.append_nil]
      rw [joinRuns_cons, cut_run_append hds (by rw [hcut]; exact hnil), hcut]
  rw [Cut.join, cut_text_append h.text, hruns k.runs h.runs, List.append_nil]

/-! ### The stretches are the parts of the cut -/

lemma Alternating.isDigit_head {rs : List (CodePoints × Name)} (h : Alternating rs) :
    ∀ c ∈ (joinRuns rs).head?, isDigit c = true := by
  cases rs with
  | nil => simp
  | cons r rs =>
    obtain ⟨hds, -⟩ := h
    intro c hc
    rw [joinRuns_cons, List.head?_append_of_ne_nil _ hds.ne_nil] at hc
    exact hds.digits c (List.mem_of_mem_head? hc)

/-- A text without digits and what begins with a digit fall apart. -/
lemma stretches_text_append {t name : Name} (ht : DigitFree t)
    (hname : ∀ c ∈ name.head?, isDigit c = true) :
    stretches (t ++ name) = stretches t ++ stretches name := by
  refine List.splitBy_append fun c hc d hd => ?_
  simp [alike, ht c (List.mem_of_mem_getLast? hc), hname d hd]

/-- A run of digits and what does not begin with a digit fall apart. -/
lemma stretches_run_append {ds : CodePoints} {name : Name} (hds : IsRun ds)
    (hname : ∀ c ∈ name.head?, isDigit c = false) :
    stretches (ds ++ name) = ds :: stretches name := by
  rw [stretches, List.splitBy_append, ← stretches,
    stretches_of_forall hds.ne_nil hds.digits]
  · rfl
  · intro c hc d hd
    simp [alike, hds.digits c (List.mem_of_mem_getLast? hc), hname d hd]

section FlatMap

variable {β : Type} {f : CodePoints → List β}

lemma flatMap_stretches_text (hf : f [] = []) {t : Name} (ht : DigitFree t) :
    (stretches t).flatMap f = f t := by
  by_cases hne : t = []
  · rw [hne, hf]
    rfl
  · rw [stretches_of_forall hne ht, List.flatMap_singleton]

/-- What is collected from the stretches of a name is collected from the parts of its cut. -/
lemma flatMap_stretches (hf : f [] = []) {k : Cut} (h : k.Exact) :
    (stretches k.join).flatMap f = f k.text ++ k.runs.flatMap fun r => f r.1 ++ f r.2 := by
  have hruns : ∀ rs : List (CodePoints × Name), Alternating rs →
      (stretches (joinRuns rs)).flatMap f = rs.flatMap fun r => f r.1 ++ f r.2 := by
    intro rs hrs
    induction rs with
    | nil => rfl
    | cons r rs ih =>
      obtain ⟨hds, ht, hnil, hrest⟩ := hrs
      have hhead : ∀ c ∈ (r.2 ++ joinRuns rs).head?, isDigit c = false := by
        intro c hc
        by_cases hempty : r.2 = []
        · simp [hempty, hnil hempty] at hc
        · rw [List.head?_append_of_ne_nil _ hempty] at hc
          exact ht c (List.mem_of_mem_head? hc)
      rw [joinRuns_cons, stretches_run_append hds hhead,
        stretches_text_append ht hrest.isDigit_head, List.flatMap_cons, List.flatMap_append,
        flatMap_stretches_text hf ht, ih hrest, List.flatMap_cons, List.append_assoc]
  rw [Cut.join, stretches_text_append h.text h.runs.isDigit_head, List.flatMap_append,
    flatMap_stretches_text hf h.text, hruns k.runs h.runs]

end FlatMap

lemma Alternating.of_mem {rs : List (CodePoints × Name)} (h : Alternating rs)
    {r : CodePoints × Name} (hr : r ∈ rs) : IsRun r.1 ∧ DigitFree r.2 := by
  induction rs with
  | nil => cases hr
  | cons s rs ih =>
    obtain ⟨hds, ht, -, hrest⟩ := h
    rcases List.mem_cons.1 hr with rfl | hr
    · exact ⟨hds, ht⟩
    · exact ih hrest hr

lemma Alternating.append {rs ss : List (CodePoints × Name)} (h : Alternating rs)
    (hlast : ∀ r ∈ rs, r.2 ≠ []) (hs : Alternating ss) : Alternating (rs ++ ss) := by
  induction rs with
  | nil => exact hs
  | cons r rs ih =>
    obtain ⟨hds, ht, -, hrest⟩ := h
    exact ⟨hds, ht, fun hempty => absurd hempty (hlast r (by simp)),
      ih hrest fun q hq => hlast q (by simp [hq])⟩

/-- What does not begin with a digit does not begin with a run. -/
lemma Alternating.eq_nil {rs : List (CodePoints × Name)} (h : Alternating rs)
    (hhead : ∀ c ∈ (joinRuns rs).head?, isDigit c = false) : rs = [] := by
  cases rs with
  | nil => rfl
  | cons r rs =>
    obtain ⟨hds, -⟩ := h
    obtain ⟨d, ds, hrun⟩ := List.exists_cons_of_ne_nil hds.ne_nil
    have hd := hhead d (by simp [hrun])
    rw [hds.digits d (by simp [hrun])] at hd
    cases hd

/-- In what does not end with a digit every run has a text after it. -/
lemma Alternating.text_ne_nil {rs : List (CodePoints × Name)} (h : Alternating rs)
    (hlast : ∀ c ∈ (joinRuns rs).getLast?, isDigit c = false) : ∀ r ∈ rs, r.2 ≠ [] := by
  induction rs with
  | nil => simp
  | cons s rs ih =>
    obtain ⟨hds, -, hnil, hrest⟩ := h
    intro r hr
    rcases List.mem_cons.1 hr with rfl | hr
    · -- without a text the run would be the end
      intro hempty
      obtain ⟨ds, d, hrun⟩ := (List.eq_nil_or_concat r.1).resolve_left hds.ne_nil
      have hd := hlast d (by simp [hempty, hnil hempty, hrun])
      rw [hds.digits d (by simp [hrun])] at hd
      cases hd
    · refine ih hrest (fun c hc => hlast c ?_) r hr
      have hne : joinRuns rs ≠ [] := by
        rintro hempty
        simp [hempty] at hc
      rwa [joinRuns_cons, ← List.append_assoc, List.getLast?_append_of_ne_nil _ hne]

/-- The runs of a name are those that it is cut at. -/
lemma digitRuns_eq (name : Name) : digitRuns name = (cut name).runs.map Prod.fst := by
  have hexact := exact_cut name
  have hfilter : ∀ ss : List CodePoints, ss.filter (fun s => s.any isDigit) =
      ss.flatMap fun s => if s.any isDigit then [s] else [] := by
    intro ss
    rw [← List.filterMap_eq_filter, List.filterMap_eq_flatMap_toList]
    refine List.flatMap_congr fun s _ => ?_
    cases hs : s.any isDigit <;> simp [Option.guard, hs]
  rw [← List.flatMap_singleton' ((cut name).runs.map Prod.fst), List.flatMap_map, digitRuns,
    hfilter, ← join_cut name, flatMap_stretches (by simp) hexact, join_cut,
    hexact.text.any_isDigit, if_neg (by simp), List.nil_append]
  refine List.flatMap_congr fun r hr => ?_
  obtain ⟨hds, ht⟩ := hexact.runs.of_mem hr
  simp [hds.any_isDigit, ht.any_isDigit]

end Natural

/-! ### The limit on runs -/

open Natural

/-- A name no run of which has more digits than can be read as a number. -/
def WithinLimit (name : Name) : Prop := ∀ ds ∈ digitRuns name, ds.length ≤ digitLimit

instance (name : Name) : Decidable (WithinLimit name) :=
  inferInstanceAs (Decidable (∀ ds ∈ digitRuns name, ds.length ≤ digitLimit))

namespace NaturalKey

lemma overLong?_eq_none {name : Name} : overLong? name = none ↔ WithinLimit name := by
  simp [overLong?, WithinLimit, digitRuns_eq]

/-- The names within the limit are those that have a natural key, which is read off their cut. -/
lemma of_eq_ok {name : Name} {key : NaturalKey} :
    of name = .ok key ↔ WithinLimit name ∧ ofCut (cut name) = key := by
  rw [← overLong?_eq_none, of]
  cases overLong? name <;> simp

/-- A name is within the limit and has a key, or its key fails with the length of a run over it. -/
lemma of_cases (name : Name) : (WithinLimit name ∧ ∃ key, of name = .ok key) ∨
    ¬WithinLimit name ∧ ∃ e, digitLimit < e.count ∧ of name = .error e := by
  rw [← overLong?_eq_none, of]
  cases hover : overLong? name with
  | none => exact .inl ⟨rfl, _, rfl⟩
  | some e =>
    obtain ⟨r, hr, rfl⟩ := Option.map_eq_some_iff.1 hover
    exact .inr ⟨nofun, _, by simpa using List.find?_some hr, rfl⟩

end NaturalKey

end KeyOrder
