import KeyOrder.Proofs.AtomPlaces

/-!
# Where the keys in an expression stand

The rules above atoms are followed step by step.  Operators keep what they join in place: calls and
chains are built from the left and start where their first operand does (`spans_foldl`).
-/

namespace KeyOrder

namespace Grammar

open KeyOrder.Parser
open Node (Spans ListPlaced widens_spans leads_spans allPlaced_bundle forall_mem_pair)

variable {text : Text} {ls : Array Lexeme} {r : Rules}

section

variable (hr : r.Sound text ls)

include hr

/-! ### Operators -/

/-- What may follow an atom, with the place where it ends. -/
def TrailerPlaced (text : Text) (ls : Array Lexeme) (i : Nat) (t : Trailer × Place) (j : Nat) :
    Prop :=
  (∃ b, i ≤ b ∧ b ≤ j ∧ t.2 = stopAt ls b) ∧
    match t.1 with
    | .attribute => True
    | .call as => ∀ a ∈ as, a.AllPlaced text
    | .subscript s => s.AllPlaced text

omit hr in
lemma widens_trailerPlaced : Widens (TrailerPlaced text ls) := by
  rintro i i' j j' t hi hj ⟨⟨b, hib, hbj, hstop⟩, ht⟩
  exact ⟨⟨b, by omega, by omega, hstop⟩, ht⟩

lemma trailer_gives : Gives ls (TrailerPlaced text ls) (trailer r) := by
  refine gives_of_leads fun i => leads_accept ?_ ?_
  · refine leads_name fun l _ _ => leads_stopPlace (leads_pure ⟨⟨i + 1 + 1, ?_, ?_, rfl⟩, trivial⟩)
    · omega
    · exact Nat.le_refl _
  refine (looks_sees "(").bind fun _ => leads_ite ?_ (leads_accept ?_ leads_fail)
  · refine (callArguments_gives hr).bind fun as j hij has => leads_stopPlace (leads_pure ?_)
    exact ⟨⟨j, hij, Nat.le_refl j, rfl⟩, has⟩
  · refine (slices_gives hr).bind fun s j hij hs => leads_word (leads_stopPlace (leads_pure ?_))
    exact ⟨⟨j + 1, by omega, Nat.le_refl _, rfl⟩, hs⟩

omit hr in
/-- What is built up step by step spans what is read when each step keeps that. -/
lemma spans_foldl {α : Type} {i k : Nat} {n : Node} {f : Node → α → Node} {P : α → Prop}
    {ts : List α} (hstep : ∀ n t, Spans text ls i n k → P t → Spans text ls i (f n t) k)
    (hn : Spans text ls i n k) (hts : ∀ t ∈ ts, P t) : Spans text ls i (ts.foldl f n) k := by
  induction ts generalizing n with
  | nil => exact hn
  | cons t ts ih =>
    obtain ⟨ht, hts⟩ := List.forall_mem_cons.1 hts
    exact ih (hstep n t hn ht) hts

omit hr in
/-- Calls, subscripts and attributes keep the start of what they are attached to. -/
lemma spans_attach {i j k : Nat} {n : Node} {t : Trailer × Place} (hij : i < j)
    (hn : Spans text ls i n k) (ht : TrailerPlaced text ls j t k) :
    Spans text ls i (attach (startAt ls i) n t) k := by
  obtain ⟨t, stop⟩ := t
  obtain ⟨⟨b, hjb, hbk, rfl⟩, ht⟩ := ht
  have hib : i < b := by omega
  obtain _ | as | s := t
  · exact Node.spans_mk rfl (Nat.le_refl i) hib hbk (List.forall_mem_singleton.2 hn.allPlaced)
  · exact Node.spans_mk rfl (Nat.le_refl i) hib hbk (List.forall_mem_cons.2 ⟨hn.allPlaced, ht⟩)
  · exact Node.spans_mk rfl (Nat.le_refl i) hib hbk (forall_mem_pair hn.allPlaced ht)

lemma primary_gives : Gives ls (Spans text ls) (primary r) := by
  refine gives_of_leads fun i => leads_startPlace ((atom_gives hr).bind fun a k _ ha => ?_)
  refine (gives_many widens_trailerPlaced (trailer_gives hr)).bind fun ts j hkj hts => ?_
  refine leads_pure (spans_foldl (fun n t hn ht => ?_) (ha.widen (Nat.le_refl i) hkj) hts)
  exact spans_attach ha.lt hn ht

lemma power_gives : Gives ls (Spans text ls) (power r) := by
  refine gives_of_leads fun i => leads_startPlace ?_
  have hrest : ∀ {base k}, Spans text ls i base k → Leads ls (Spans text ls) i k (do
      if ← accept "**" then
        let e ← r.factor
        nodeFrom (startAt ls i) .group [base, e]
      else return base) := by
    intro base k hbase
    refine leads_accept (hr.factor.bind fun e j hkj he => ?_) (leads_pure hbase)
    have hlt := hbase.lt
    exact leads_spans rfl (by omega) (forall_mem_pair hbase.allPlaced he.allPlaced)
  refine leads_accept ?_ ((primary_gives hr).bind fun base k _ hbase => hrest hbase)
  refine (primary_gives hr).bind fun base k hik hbase => leads_nodeFrom_bind (hrest ?_)
  exact Node.spans_mk rfl (Nat.le_refl i) hik (Nat.le_refl k)
    (List.forall_mem_singleton.2 hbase.allPlaced)

lemma factor_gives : Gives ls (Spans text ls) (factor r) := by
  refine gives_of_leads fun i => leads_startPlace ?_
  refine (gives_oneOf ["+", "-", "~"]).optional_bind (fun _ k _ hk => ?_) ?_
  · refine hr.factor.bind fun e j hkj he => ?_
    exact leads_spans rfl (by omega) (List.forall_mem_singleton.2 he.allPlaced)
  · exact (power_gives hr).leads widens_spans

omit hr in
/-- Operands that are grouped from the left, each with the place after it. -/
lemma chain_gives (ops : List String) {p : Parser Node} (hp : Gives ls (Spans text ls) p) :
    Gives ls (Spans text ls) (chain ops p) := by
  have hoperand : Gives ls
      (fun i t j => t.1.AllPlaced text ∧ ∃ b, i ≤ b ∧ b ≤ j ∧ t.2 = stopAt ls b)
      (do oneOf ops; let e ← p; return (e, ← stopPlace)) := by
    refine gives_of_leads fun i => (gives_oneOf ops).bind fun _ k hik _ => ?_
    refine hp.bind fun e j hkj he => leads_stopPlace (leads_pure ⟨he.allPlaced, j, ?_⟩)
    exact ⟨hik.trans hkj, Nat.le_refl j, rfl⟩
  have hwidens : Widens fun i (t : Node × Place) j =>
      t.1.AllPlaced text ∧ ∃ b, i ≤ b ∧ b ≤ j ∧ t.2 = stopAt ls b := by
    rintro i i' j j' t hi hj ⟨ht, b, hib, hbj, hstop⟩
    exact ⟨ht, b, by omega, by omega, hstop⟩
  refine gives_of_leads fun i => leads_startPlace (hp.bind fun first k _ hfirst => ?_)
  refine (gives_many hwidens hoperand).bind fun rest j hkj hrest => leads_pure ?_
  have hlt := hfirst.lt
  refine spans_foldl ?_ (hfirst.widen (Nat.le_refl i) hkj) hrest
  rintro n ⟨e, _⟩ hn ⟨he, b, hkb, hbj, rfl⟩
  exact Node.spans_mk rfl (Nat.le_refl i) (by omega) hbj (forall_mem_pair hn.allPlaced he)

lemma operand_gives : Gives ls (Spans text ls) (operand r) :=
  chain_gives _ <| chain_gives _ <| chain_gives _ <| chain_gives _ <| chain_gives _ <|
    chain_gives _ (factor_gives hr)

omit hr in
lemma comparator_gives : Gives ls (fun _ _ _ => True) comparator := by
  refine gives_of_leads fun i => leads_accept ?_ (leads_accept ?_ (leads_accept ?_ ?_))
  · exact leads_accept_any fun _ _ _ => leads_pure trivial
  · exact ((gives_word "in").mono fun _ _ _ _ => trivial).leads fun _ _ _ _ _ _ _ h => h
  · exact leads_pure trivial
  · exact ((gives_oneOf _).mono fun _ _ _ _ => trivial).leads fun _ _ _ _ _ _ _ h => h

omit hr in
/-- A first expression, and the group of it and what may follow. -/
lemma leads_group {i k : Nat} {first : Node} {rest : List Node} {s : Place}
    (hs : s = startAt ls i) (hik : i < k) (hfirst : Spans text ls i first k)
    (hrest : ∀ n ∈ rest, n.AllPlaced text) :
    Leads ls (Spans text ls) i k
      (if rest.isEmpty then pure first else nodeFrom s .group (first :: rest)) := by
  subst hs
  refine leads_ite (leads_pure hfirst) (leads_spans rfl hik ?_)
  exact List.forall_mem_cons.2 ⟨hfirst.allPlaced, hrest⟩

lemma comparison_gives : Gives ls (Spans text ls) (comparison r) := by
  have hoperand : Gives ls (Spans text ls) (do comparator; operand r) :=
    gives_of_leads fun _ => comparator_gives.bind fun _ _ _ _ =>
      (operand_gives hr).leads widens_spans
  refine gives_of_leads fun i => leads_startPlace ?_
  refine (operand_gives hr).bind fun first k _ hfirst => ?_
  refine (gives_many widens_spans hoperand).bind fun rest j hkj hrest => ?_
  have hlt := hfirst.lt
  exact leads_group rfl (by omega) (hfirst.widen (Nat.le_refl i) hkj)
    fun n hn => (hrest n hn).allPlaced

lemma inversion_gives : Gives ls (Spans text ls) (inversion r) := by
  refine gives_of_leads fun i => leads_startPlace (leads_accept ?_ ?_)
  · refine hr.inversion.bind fun e j hij he => ?_
    exact leads_spans rfl hij (List.forall_mem_singleton.2 he.allPlaced)
  · exact (comparison_gives hr).leads widens_spans

omit hr in
lemma joined_gives (s : String) {p : Parser Node} (hp : Gives ls (Spans text ls) p) :
    Gives ls (Spans text ls) (joined s p) := by
  refine gives_of_leads fun i => leads_startPlace (hp.bind fun first k _ hfirst => ?_)
  refine (Node.gives_many_after hp s).bind fun rest j hkj hrest => ?_
  have hlt := hfirst.lt
  exact leads_group rfl (by omega) (hfirst.widen (Nat.le_refl i) hkj) hrest

lemma disjunction_gives : Gives ls (Spans text ls) (disjunction r) :=
  joined_gives _ (joined_gives _ (inversion_gives hr))

/-! ### Parameters -/

/-- The keys in all parts of a parameter list stand where they should. -/
structure ParametersPlaced (text : Text) (p : Parameters) : Prop where
  positional : ∀ n ∈ p.positional, n.AllPlaced text
  rest : ∀ n ∈ p.rest, n.AllPlaced text
  keywordOnly : ∀ n ∈ p.keywordOnly, n.AllPlaced text
  keywordDefaults : ∀ n ∈ p.keywordDefaults, n.AllPlaced text
  keywordRest : ∀ n ∈ p.keywordRest, n.AllPlaced text
  defaults : ∀ n ∈ p.defaults, n.AllPlaced text

omit hr in
lemma ParametersPlaced.nodes {p : Parameters} (h : ParametersPlaced text p) :
    ∀ n ∈ p.nodes, n.AllPlaced text := by
  intro n hn
  simp only [Parameters.nodes, List.mem_append] at hn
  rcases hn with ((((hn | hn) | hn) | hn) | hn) | hn
  · exact h.positional n hn
  · exact h.rest n hn
  · exact h.keywordOnly n hn
  · exact h.keywordDefaults n hn
  · exact h.keywordRest n hn
  · exact h.defaults n hn

lemma annotation_gives (annotated star : Bool) :
    Gives ls (ListPlaced text) ( annotation r annotated star) := by
  refine gives_of_leads fun i => leads_ite (leads_pure (List.forall_mem_nil _)) ?_
  refine leads_accept (leads_ite ?_ ?_) (leads_pure (List.forall_mem_nil _))
  · refine (starExpression_gives hr).bind fun e _ _ he => leads_pure ?_
    exact List.forall_mem_singleton.2 he.allPlaced
  · exact hr.expression.bind fun e _ _ he => leads_pure (List.forall_mem_singleton.2 he.allPlaced)

/-- A parameter adds its annotation and its default to the parts that are read before. -/
lemma parameter_gives (annotated : Bool) {st : ParameterState}
    (hst : ParametersPlaced text st.parts) :
    Gives ls (fun _ st _ => ParametersPlaced text st.parts) (parameter r annotated st) := by
  refine gives_of_leads fun i => leads_ite leads_fail (leads_accept ?_ (leads_accept ?_ ?_))
  · -- the rest of the keywords
    refine leads_ite leads_fail (leads_name fun _ _ _ => ?_)
    refine (annotation_gives hr annotated false).bind fun a _ _ ha => leads_pure ?_
    exact { hst with keywordRest := ha }
  · -- the rest of the positional parameters, or a bare star
    refine leads_ite leads_fail (looks_seesName.bind fun _ => leads_ite ?_ (leads_pure hst))
    refine leads_name fun _ _ _ => ?_
    refine (annotation_gives hr annotated true).bind fun a _ _ ha => leads_pure ?_
    exact { hst with rest := ha }
  refine leads_accept (leads_ite leads_fail (leads_pure hst)) (leads_name fun _ _ _ => ?_)
  refine (annotation_gives hr annotated false).bind fun a k _ ha => ?_
  have hdefault : ∀ d j, (∀ n ∈ d, n.AllPlaced text) →
      Leads ls (fun _ st _ => ParametersPlaced text st.parts) i j
        (if st.star then
          return { st with
            parts := { st.parts with
              keywordOnly := st.parts.keywordOnly ++ a
              keywordDefaults := st.parts.keywordDefaults ++ d }
            bare := false, nonempty := true }
        else if st.defaulted && d.isEmpty then fail
        else
          return { st with
            parts := { st.parts with
              positional := st.parts.positional ++ a
              defaults := st.parts.defaults ++ d }
            defaulted := st.defaulted || !d.isEmpty, nonempty := true }) := by
    intro d j hd
    refine leads_ite (leads_pure ?_) (leads_ite leads_fail (leads_pure ?_))
    · exact { hst with
        keywordOnly := List.forall_mem_append.2 ⟨hst.keywordOnly, ha⟩
        keywordDefaults := List.forall_mem_append.2 ⟨hst.keywordDefaults, hd⟩ }
    · exact { hst with
        positional := List.forall_mem_append.2 ⟨hst.positional, ha⟩
        defaults := List.forall_mem_append.2 ⟨hst.defaults, hd⟩ }
  refine leads_accept ?_ (leads_pure_bind (hdefault [] k (List.forall_mem_nil _)))
  refine hr.expression.bind fun e j _ he => leads_pure_bind (hdefault [e] j ?_)
  exact List.forall_mem_singleton.2 he.allPlaced

lemma moreParameters_gives (annotated : Bool) (n : Nat) {st : ParameterState}
    (hst : ParametersPlaced text st.parts) :
    Gives ls (fun _ st _ => ParametersPlaced text st.parts) (moreParameters r annotated st n) := by
  induction n generalizing st with
  | zero => exact gives_of_leads fun _ => leads_pure hst
  | succ n ih =>
    have hnext := gives_after "," (fun _ _ _ _ _ _ _ h => h) (parameter_gives hr annotated hst)
    refine gives_of_leads fun i => hnext.optional_bind (fun st _ _ hst => ?_) (leads_pure hst)
    exact (ih hst).leads fun _ _ _ _ _ _ _ h => h

lemma parameters_gives (annotated : Bool) (stop : String) :
    Gives ls (ListPlaced text) (parameters r annotated stop) := by
  have hinitial : ParametersPlaced text ParameterState.initial.parts := by
    constructor <;> exact List.forall_mem_nil _
  refine gives_of_leads fun i => (looks_sees stop).bind fun _ => leads_ite ?_ ?_
  · exact leads_pure (List.forall_mem_nil _)
  refine (parameter_gives hr annotated hinitial).bind fun st _ _ hst => ?_
  refine looks_size.bind fun n => ?_
  refine (moreParameters_gives hr annotated n hst).bind fun st _ _ hst => ?_
  refine leads_ite leads_fail (leads_accept_any fun _ _ _ => ?_)
  exact (looks_sees stop).bind fun _ => leads_ite (leads_pure hst.nodes) leads_fail

lemma lambda_gives : Gives ls (Spans text ls) (lambda r) := by
  refine gives_of_leads fun i => leads_startPlace (leads_word ?_)
  refine (parameters_gives hr false ":").bind fun ps k hik hps => leads_word ?_
  refine hr.expression.bind fun body j hkj hbody => ?_
  exact leads_spans rfl (by omega) (forall_mem_pair (allPlaced_bundle hps) hbody.allPlaced)

lemma expression_gives : Gives ls (Spans text ls) (expression r) := by
  refine gives_of_leads fun i => leads_startPlace ?_
  refine (looks_sees "lambda").bind fun _ => leads_ite ?_ ?_
  · exact (lambda_gives hr).leads widens_spans
  refine (disjunction_gives hr).bind fun e k hik he => ?_
  refine (looks_sees "if").bind fun _ => leads_ite (leads_orElse ?_ ?_) (leads_pure he)
  · refine leads_word ((disjunction_gives hr).bind fun test k' hkk' htest => leads_word ?_)
    refine hr.expression.bind fun alternative j hkj halternative => ?_
    refine leads_spans rfl (by omega) (List.forall_mem_cons.2 ⟨htest.allPlaced, ?_⟩)
    exact forall_mem_pair he.allPlaced halternative.allPlaced
  · exact leads_pure he

end

end Grammar

end KeyOrder
