import KeyOrder.Proofs.NodePlaces

/-!
# Where the keys in an atom stand

The rules for atoms and for what atoms are made of are followed step by step: an expression runs
from the start of one lexeme to the end of another, and the keys in it stand where they should.
There are two places where something has to be shown.  An argument with a keyword starts with the
word of the keyword (`allPlaced_keyword`), and the key of a pair in a display ends before its value
does (`ordered_pair`).

The rules refer to each other through `Rules`, so all lemmas ask for `Rules.Sound`.
-/

namespace KeyOrder

namespace Grammar

open KeyOrder.Parser
open Node (Spans Placed ListPlaced widens_spans widens_placed leads_spans leads_placed
  placed_commaList placed_many1 placed_of_spans allPlaced_of_isFree allPlaced_bundle
  forall_mem_pair)

variable {text : Text} {ls : Array Lexeme} {r : Rules}

/-! ### Single lexemes -/

/-- A node for one lexeme. -/
lemma spans_lexeme {i : Nat} {l : Lexeme} (hl : ls[i]? = some l) {k : NodeKind}
    (hk : k.isFree = true) : Spans text ls i (.mk k ⟨l.span.1, l.span.2⟩ []) (i + 1) := by
  have hspan : (⟨l.span.1, l.span.2⟩ : Span) = ⟨startAt ls i, stopAt ls (i + 1)⟩ := by
    simp [startAt, stopAt, hl]
  rw [hspan]
  exact Node.spans_mk hk (Nat.le_refl i) (Nat.lt_succ_self i) (Nat.le_refl _)
    (List.forall_mem_nil _)

lemma nameNode_gives (text : Text) : Gives ls (Spans text ls) nameNode :=
  gives_of_leads fun _ => leads_name fun _ hl _ => leads_pure (spans_lexeme hl rfl)

lemma number_gives (text : Text) : Gives ls (Spans text ls) number := by
  refine gives_of_leads fun i => (gives_ofKind .number).bind fun l j _ ⟨hl, _, hj⟩ => ?_
  subst hj
  split
  · exact leads_pure (spans_lexeme hl rfl)
  · exact leads_fail

lemma constantWord_gives (text : Text) (s : String) (c : Constant) :
    Gives ls (Spans text ls) (constantWord s c) := by
  refine gives_of_leads fun i => leads_startPlace (leads_word ?_)
  exact leads_spans rfl (Nat.lt_succ_self i) (List.forall_mem_nil _)

section

variable (hr : r.Sound text ls)

include hr

/-! ### Lists of expressions -/

lemma namedExpression_gives : Gives ls (Spans text ls) (namedExpression r) := by
  refine gives_of_leads fun i => leads_startPlace (leads_seesName_seesSecond ?_ ?_)
  · refine (nameNode_gives text).bind fun target k hik htarget => leads_word ?_
    refine hr.expression.bind fun value j hkj hvalue => ?_
    exact leads_spans rfl (by omega) (forall_mem_pair htarget.allPlaced hvalue.allPlaced)
  · refine hr.expression.bind fun e j hij he => (looks_notAhead ":=").bind fun _ => ?_
    exact leads_pure he

lemma starOr_gives {p : Parser Node} (hp : Gives ls (Spans text ls) p) :
    Gives ls (Spans text ls) (starOr r p) := by
  refine gives_of_leads fun i => leads_startPlace (leads_accept ?_ (hp.leads widens_spans))
  refine hr.operand.bind fun e j hij he => ?_
  exact leads_spans rfl hij (List.forall_mem_singleton.2 he.allPlaced)

lemma starExpression_gives : Gives ls (Spans text ls) (starExpression r) :=
  starOr_gives hr hr.expression

lemma starNamedExpression_gives : Gives ls (Spans text ls) (starNamedExpression r) :=
  starOr_gives hr (namedExpression_gives hr)

lemma starExpressions_gives : Gives ls (Spans text ls) (starExpressions r) := by
  refine gives_of_leads fun i => leads_startPlace ?_
  refine (Node.gives_commaList (starExpression_gives hr)).bind fun (es, trailing) j _ h => ?_
  obtain ⟨hij, hes⟩ := h
  dsimp only at hes ⊢
  split
  · exact leads_pure (hes _ List.mem_cons_self)
  · exact leads_spans rfl hij fun e he => (hes e he).allPlaced

lemma yieldExpression_gives : Gives ls (Spans text ls) (yieldExpression r) := by
  refine gives_of_leads fun i => leads_startPlace (leads_word (leads_accept ?_ ?_))
  · refine hr.expression.bind fun e j hij he => ?_
    exact leads_spans rfl (by omega) (List.forall_mem_singleton.2 he.allPlaced)
  · refine (starExpressions_gives hr).optional_bind (fun e j hij he => ?_) ?_
    · exact leads_spans rfl hij (List.forall_mem_singleton.2 he.allPlaced)
    · exact leads_spans rfl (Nat.lt_succ_self i) (List.forall_mem_nil _)

lemma yieldOrExpressions_gives : Gives ls (Spans text ls) (yieldOrExpressions r) := by
  refine gives_of_leads fun i => (looks_sees "yield").bind fun _ => leads_ite ?_ ?_
  · exact (yieldExpression_gives hr).leads widens_spans
  · exact (starExpressions_gives hr).leads widens_spans

/-! ### Targets and comprehensions -/

lemma starTarget_gives : Gives ls (Spans text ls) (starTarget r) := by
  refine gives_of_leads fun i => leads_startPlace (leads_accept ?_ ?_)
  · refine hr.primary.bind fun t j hij ht => leads_ite ?_ leads_fail
    exact leads_spans rfl hij (List.forall_mem_singleton.2 ht.allPlaced)
  · exact hr.primary.bind fun t j hij ht => leads_ite (leads_pure ht) leads_fail

lemma starTargets_gives : Gives ls (Spans text ls) (starTargets r) := by
  refine gives_of_leads fun i => leads_startPlace ?_
  refine (Node.gives_commaList (starTarget_gives hr)).bind fun (ts, trailing) j _ h => ?_
  obtain ⟨hij, hts⟩ := h
  dsimp only at hts ⊢
  split
  · exact leads_pure (hts _ List.mem_cons_self)
  · exact leads_spans rfl hij fun t ht => (hts t ht).allPlaced

lemma clause_gives : Gives ls (Placed text) (clause r) := by
  refine gives_of_leads fun i => leads_accept_any fun _ _ _ => leads_word ?_
  refine (starTargets_gives hr).bind fun target _ _ htarget => leads_word ?_
  refine hr.disjunction.bind fun source _ _ hsource => ?_
  refine (Node.gives_many_after hr.disjunction "if").bind fun conditions _ _ hconditions => ?_
  refine leads_pure (allPlaced_bundle (List.forall_mem_cons.2 ⟨htarget.allPlaced, ?_⟩))
  exact List.forall_mem_cons.2 ⟨hsource.allPlaced, hconditions⟩

/-- What is left of a comprehension after its parts: the clauses and the closing bracket. -/
lemma leads_comprehension {i k : Nat} {parts : List Node} (stop : String) (hik : i < k)
    (hparts : ∀ n ∈ parts, n.AllPlaced text) :
    Leads ls (Spans text ls) i k (do
      let cs ← many1 (clause r)
      word stop
      nodeFrom (startAt ls i) .group (parts ++ cs)) := by
  refine (placed_many1 (clause_gives hr)).bind fun cs j hkj hcs => leads_word ?_
  exact leads_spans rfl (by omega) (List.forall_mem_append.2 ⟨hparts, hcs⟩)

/-! ### Arguments -/

/-- An argument with a keyword starts with the word that the keyword comes from. -/
lemma allPlaced_keyword {i j : Nat} {l m : Lexeme} {e : Node} (hl : ls[i]? = some l)
    (hname : isName l = true) (hm : ls[i + 1]? = some m) (hequals : isWord "=" m = true)
    (hij : i < j) (hj : j ≤ ls.size) (he : e.AllPlaced text) :
    Node.AllPlaced text
      (.mk (.keyword (some (identifier l))) ⟨startAt ls i, stopAt ls j⟩ [e]) := by
  simp only [isWord, isName, Bool.and_eq_true, beq_iff_eq] at hequals hname
  obtain ⟨gap, hgap, hstands, hstop, hne, hchars⟩ := hr.fits.keyword hl hm hname.1 hequals.2
  have hstart : startAt ls i = l.span.1 := by simp [startAt, hl]
  have hend : stopAt ls (i + 1) = l.span.2 := by simp [stopAt, hl]
  refine .node ⟨fun hdisplay => ?_, ?_⟩ (List.forall_mem_singleton.2 he)
  · cases hdisplay
  rintro name ⟨⟩
  refine ⟨l.text.toList, gap, rfl, hne, hchars, hgap, ?_, ?_⟩
  · rw [Node.span, hstart]
    exact hstands
  · rw [Node.span, hstart, ← hstop, ← hend]
    exact hr.fits.stop_le_stop (Nat.succ_pos i) hij hj

lemma argument_gives (stage : ArgumentStage) :
    Gives ls (fun _ a _ => a.1.AllPlaced text) (argument r stage) := by
  refine gives_of_leads fun i => leads_startPlace (leads_accept ?_ ?_)
  · -- a spread of keyword arguments
    refine hr.expression.bind fun e _ _ he => leads_nodeFrom_bind (leads_pure ?_)
    exact allPlaced_of_isFree rfl (List.forall_mem_singleton.2 he.allPlaced)
  refine leads_seesName_seesSecond ?_ (leads_accept ?_ (leads_ite ?_ leads_fail))
  · -- an argument with a keyword
    refine leads_name fun l hl hname => ?_
    refine (gives_word "=").bind fun _ k _ ⟨⟨m, hm, hequals⟩, hk⟩ => ?_
    subst hk
    refine hr.expression.bind fun e j hkj he => leads_nodeFrom_bind (.of_reaches fun hij => ?_)
    have hlt := (Array.getElem?_eq_some_iff.1 hm).1
    have hle := hij.le_size
    exact leads_pure
      (allPlaced_keyword hr hl hname hm hequals (by omega) (by omega) he.allPlaced)
  · -- a starred argument
    refine hr.expression.bind fun e _ _ he => leads_ite leads_fail ?_
    refine leads_nodeFrom_bind (leads_pure ?_)
    exact allPlaced_of_isFree rfl (List.forall_mem_singleton.2 he.allPlaced)
  · -- a positional argument
    refine (namedExpression_gives hr).bind fun e _ _ he => (looks_notAhead "=").bind fun _ => ?_
    exact leads_pure he.allPlaced

lemma moreArguments_gives (stage : ArgumentStage) (n : Nat) :
    Gives ls (ListPlaced text) (moreArguments r stage n) := by
  induction n generalizing stage with
  | zero => exact gives_of_leads fun _ => leads_pure (List.forall_mem_nil _)
  | succ n ih =>
    have hnext := gives_after "," (fun _ _ _ _ _ _ _ h => h) (argument_gives hr stage)
    refine gives_of_leads fun i => hnext.optional_bind (fun (a, stage) _ _ ha => ?_) ?_
    · refine (ih stage).bind fun as _ _ has => leads_pure ?_
      exact List.forall_mem_cons.2 ⟨ha, has⟩
    · exact leads_pure (List.forall_mem_nil _)

lemma arguments_gives : Gives ls (ListPlaced text) (arguments r) := by
  refine gives_of_leads fun i => (looks_sees ")").bind fun _ => leads_ite ?_ ?_
  · exact leads_pure (List.forall_mem_nil _)
  · refine (argument_gives hr .positional).bind fun (a, stage) _ _ ha => ?_
    refine looks_size.bind fun n => (moreArguments_gives hr stage n).bind fun as _ _ has => ?_
    refine leads_accept_any fun _ _ _ => (looks_sees ")").bind fun _ => leads_ite ?_ leads_fail
    exact leads_pure (List.forall_mem_cons.2 ⟨ha, has⟩)

lemma callArguments_gives : Gives ls (ListPlaced text) (callArguments r) := by
  refine gives_of_leads fun i => leads_startPlace (leads_word ?_)
  refine (looks_sees "*").bind fun _ => (looks_sees "**").bind fun _ =>
    (looks_sees ")").bind fun _ => looks_seesName.bind fun _ =>
      (looks_seesSecond "=").bind fun _ => leads_ite ?_ ?_
  · refine (arguments_gives hr).bind fun as _ _ has => leads_word ?_
    exact leads_pure has
  refine (namedExpression_gives hr).bind fun e k _ he => looks_seesClause.bind fun _ =>
    leads_ite ?_ ?_
  · -- a comprehension
    refine (placed_many1 (clause_gives hr)).bind fun cs _ _ hcs => leads_word ?_
    refine leads_nodeFrom_bind (leads_pure (List.forall_mem_singleton.2 ?_))
    exact allPlaced_of_isFree rfl (List.forall_mem_cons.2 ⟨he.allPlaced, hcs⟩)
  · refine (looks_notAhead "=").bind fun _ => looks_size.bind fun n => ?_
    refine (moreArguments_gives hr .positional n).bind fun as _ _ has => ?_
    refine leads_accept_any fun _ _ _ => leads_word (leads_pure ?_)
    exact List.forall_mem_cons.2 ⟨he.allPlaced, has⟩

/-! ### Subscripts -/

lemma slicePart_gives : Gives ls (ListPlaced text) (slicePart r) := by
  refine gives_of_leads fun i => (looks_sees ":").bind fun _ => (looks_sees "]").bind fun _ =>
    (looks_sees ",").bind fun _ => leads_ite (leads_pure (List.forall_mem_nil _)) ?_
  refine hr.expression.bind fun e _ _ he => leads_pure ?_
  exact List.forall_mem_singleton.2 he.allPlaced

lemma sliceFrom_gives (start : Place) {lower : List Node} (hlower : ∀ n ∈ lower, n.AllPlaced text) :
    Gives ls (Placed text) (sliceFrom r start lower) := by
  refine gives_of_leads fun i => leads_word ?_
  refine (slicePart_gives hr).bind fun upper k _ hupper => ?_
  have hnode : ∀ step j, (∀ n ∈ step, n.AllPlaced text) →
      Leads ls (Placed text) i j (nodeFrom start .group (lower ++ upper ++ step)) := by
    intro step j hstep
    refine leads_placed rfl (List.forall_mem_append.2 ⟨?_, hstep⟩)
    exact List.forall_mem_append.2 ⟨hlower, hupper⟩
  refine leads_accept ?_ (leads_pure_bind (hnode [] k (List.forall_mem_nil _)))
  exact (slicePart_gives hr).bind fun step j _ hstep => hnode step j hstep

lemma slice_gives : Gives ls (Placed text) (slice r) := by
  refine gives_of_leads fun i => leads_startPlace ?_
  refine (looks_sees ":").bind fun _ => leads_ite ?_ ?_
  · exact (sliceFrom_gives hr _ (List.forall_mem_nil _)).leads widens_placed
  · refine looks_seesName.bind fun _ => (looks_seesSecond ":=").bind fun _ => ?_
    refine (namedExpression_gives hr).bind fun e _ _ he => (looks_sees ":").bind fun _ => ?_
    have hlower : ∀ n ∈ [e], n.AllPlaced text := List.forall_mem_singleton.2 he.allPlaced
    exact leads_ite ((sliceFrom_gives hr _ hlower).leads widens_placed) (leads_pure he.allPlaced)

lemma sliceOrStarred_gives : Gives ls (Placed text) (sliceOrStarred r) := by
  refine gives_of_leads fun i => leads_startPlace (leads_accept ?_ ?_)
  · refine hr.expression.bind fun e _ _ he => ?_
    exact leads_placed rfl (List.forall_mem_singleton.2 he.allPlaced)
  · exact (slice_gives hr).leads widens_placed

lemma slices_gives : Gives ls (Placed text) (slices r) := by
  refine gives_of_leads fun i => leads_startPlace ((looks_sees "*").bind fun _ => ?_)
  refine (placed_commaList (sliceOrStarred_gives hr)).bind fun (ss, trailing) _ _ hss => ?_
  dsimp only at hss ⊢
  split
  · exact leads_ite (leads_placed rfl hss) (leads_pure (hss _ List.mem_cons_self))
  · exact leads_placed rfl hss

/-! ### Atoms -/

omit hr in
lemma strings_gives (text : Text) (r : Rules) : Gives ls (Spans text ls) (strings r) := by
  have hstrings : Gives ls (fun i _ j => i < j) (many1 (ofKind .string)) := by
    have hone : Gives ls (fun i _ j => i < j) (ofKind .string) :=
      (gives_ofKind .string).mono fun i _ _ ⟨_, _, hj⟩ => hj ▸ Nat.lt_succ_self i
    refine (gives_many1 (fun _ _ _ _ _ hi hj h => by omega) hone).mono ?_
    rintro i ss j ⟨hne, hss⟩
    obtain ⟨s, hs⟩ := List.exists_mem_of_ne_nil _ hne
    exact hss s hs
  refine gives_of_leads fun i => leads_startPlace (hstrings.bind fun ss k _ hik => ?_)
  have hconstant : ∀ c, Leads ls (Spans text ls) i k (nodeFrom (startAt ls i) (.constant c) []) :=
    fun c => leads_spans rfl hik (List.forall_mem_nil _)
  refine leads_ite ?_ (leads_ite leads_fail ?_)
  · split
    · exact hconstant _
    · exact leads_fail
  · dsimp only
    split
    · exact leads_fail
    · -- nothing is asked of what stands in a formatted string
      refine leads_ite (leads_nodeFrom ⟨.template, ?_⟩) (hconstant _)
      exact ⟨i, k, Nat.le_refl i, hik, Nat.le_refl k, rfl⟩

lemma parenthesized_gives : Gives ls (Spans text ls) (parenthesized r) := by
  refine gives_of_leads fun i => leads_startPlace (leads_word (leads_accept ?_ ?_))
  · exact leads_spans rfl (by omega) (List.forall_mem_nil _)
  refine (looks_sees "yield").bind fun _ => leads_ite ?_ ?_
  · refine (yieldExpression_gives hr).bind fun e j hij he => leads_word (leads_pure ?_)
    exact he.widen (Nat.le_succ i) (Nat.le_succ j)
  refine (looks_sees "*").bind fun _ => ?_
  refine (starNamedExpression_gives hr).bind fun e k hik he => leads_accept ?_ ?_
  · -- a tuple
    have htuple : ∀ rest j, k < j → (∀ n ∈ rest, n.AllPlaced text) →
        Leads ls (Spans text ls) i j (do
          word ")"
          nodeFrom (startAt ls i) .tuple (e :: rest)) := by
      intro rest j hkj hrest
      refine leads_word (leads_spans rfl (by omega) ?_)
      exact List.forall_mem_cons.2 ⟨he.allPlaced, hrest⟩
    refine (looks_sees ")").bind fun _ => leads_ite ?_ ?_
    · exact leads_pure_bind (htuple [] _ (Nat.lt_succ_self k) (List.forall_mem_nil _))
    · refine (Node.gives_commaList (starNamedExpression_gives hr)).bind fun rest j hkj hrest => ?_
      exact leads_pure_bind (htuple rest.1 j hkj fun n hn => (hrest.2 n hn).allPlaced)
  · refine leads_ite leads_fail (looks_seesClause.bind fun _ => leads_ite ?_ ?_)
    · exact leads_comprehension hr ")" (by omega) (List.forall_mem_singleton.2 he.allPlaced)
    · exact leads_word (leads_pure (he.widen (Nat.le_succ i) (Nat.le_succ k)))

omit hr in
/-- Items that may follow a first one, up to and with the closing bracket. -/
lemma leads_items {i k : Nat} {first : Node} {kind : NodeKind} {p : Parser Node} {stop : String}
    {Q : Node → Prop} (hp : Gives ls (fun _ n _ => Q n) p) (hik : i < k) (hfirst : Q first)
    (hnode : ∀ {j} items, i < j → (∀ n ∈ items, Q n) →
      Spans text ls i (.mk kind ⟨startAt ls i, stopAt ls j⟩ items) j) :
    Leads ls (Spans text ls) i k (do
      let rest ← do
        if ← accept "," then
          if ← sees stop then pure [] else pure (← commaList p).1
        else pure []
      word stop
      nodeFrom (startAt ls i) kind (first :: rest)) := by
  have hclose : ∀ rest j, k ≤ j → (∀ n ∈ rest, Q n) → Leads ls (Spans text ls) i j (do
      word stop
      nodeFrom (startAt ls i) kind (first :: rest)) := by
    intro rest j hkj hrest
    refine leads_word (leads_nodeFrom (hnode _ (by omega) ?_))
    exact List.forall_mem_cons.2 ⟨hfirst, hrest⟩
  refine leads_accept ?_ (leads_pure_bind (hclose [] k (Nat.le_refl k) (List.forall_mem_nil _)))
  refine (looks_sees stop).bind fun _ => leads_ite ?_ ?_
  · exact leads_pure_bind (hclose [] _ (Nat.le_succ k) (List.forall_mem_nil _))
  · refine (gives_commaList (fun _ _ _ _ _ _ _ h => h) hp).bind fun rest j hkj hrest => ?_
    exact leads_pure_bind (hclose rest.1 j (by omega) hrest.2)

lemma bracketed_gives : Gives ls (Spans text ls) (bracketed r) := by
  refine gives_of_leads fun i => leads_startPlace (leads_word (leads_accept ?_ ?_))
  · exact leads_spans rfl (by omega) (List.forall_mem_nil _)
  refine (looks_sees "*").bind fun _ => ?_
  refine (starNamedExpression_gives hr).bind fun e k hik he => ?_
  refine looks_seesClause.bind fun _ => leads_ite ?_ ?_
  · exact leads_comprehension hr "]" (by omega) (List.forall_mem_singleton.2 he.allPlaced)
  · refine leads_items (placed_of_spans (starNamedExpression_gives hr)) (by omega) he.allPlaced ?_
    exact fun items hij hitems => Node.spans_mk rfl (Nat.le_refl i) hij (Nat.le_refl _) hitems

/-! ### Displays -/

omit hr in
lemma ordered_single {k : NodeKind} {s : Span} (e : Node) : Node.Ordered (.mk k s [e]) := nofun

/-- A key that is read before a value ends no later than the value. -/
lemma ordered_pair {i j i' j' : Nat} {k v : Node} (hk : Spans text ls i k j)
    (hv : Spans text ls i' v j') (hj : j ≤ i') (hj' : j' ≤ ls.size) (kind : NodeKind) (s : Span) :
    Node.Ordered (.mk kind s [k, v]) := by
  obtain ⟨-, a, b, -, hab, hbj, hkspan⟩ := hk
  obtain ⟨-, a', b', hia', hab', hbj', hvspan⟩ := hv
  rintro k v ⟨⟩
  rw [hkspan, hvspan]
  exact ⟨hr.fits.one_le_line (by omega), hr.fits.start_le_stop hab (by omega),
    hr.fits.stop_le_stop (by omega) (by omega) (by omega)⟩

omit hr in
/-- A display over all that is read, with its items. -/
lemma spans_display {i j : Nat} {items : List Node} (hij : i < j)
    (hitems : ∀ n ∈ items, n.AllPlaced text ∧ n.Ordered) :
    Spans text ls i (.mk .display ⟨startAt ls i, stopAt ls j⟩ items) j := by
  refine ⟨.node ⟨?_, nofun⟩ ?_, i, j, Nat.le_refl i, hij, Nat.le_refl j, rfl⟩
  · intro _ item hitem
    exact (hitems item hitem).2
  · intro item hitem
    exact (hitems item hitem).1

/-- A pair of a key and a value, made of what was read before and after the colon. -/
lemma pair_of_spans {i i' j j' : Nat} {k v : Node} (s : Span) (hk : Spans text ls i k j)
    (hv : Spans text ls i' v j') (hj : j < i') (hreach : Reaches ls i j') :
    Node.AllPlaced text (.mk .pair s [k, v]) ∧ Node.Ordered (.mk .pair s [k, v]) := by
  have hk' := hk.lt
  have hv' := hv.lt
  have hle := hreach.le_size
  refine ⟨allPlaced_of_isFree rfl (forall_mem_pair hk.allPlaced hv.allPlaced), ?_⟩
  exact ordered_pair hr hk hv (by omega) (by omega) _ _

lemma displayItem_gives :
    Gives ls (fun _ n _ => n.AllPlaced text ∧ n.Ordered) (displayItem r) := by
  refine gives_of_leads fun i => leads_startPlace (leads_accept ?_ ?_)
  · refine hr.operand.bind fun e _ _ he => leads_nodeFrom ⟨?_, ordered_single e⟩
    exact allPlaced_of_isFree rfl (List.forall_mem_singleton.2 he.allPlaced)
  · refine hr.expression.bind fun k _ _ hk => leads_word ?_
    refine hr.expression.bind fun v _ _ hv => .of_reaches fun hij => ?_
    exact leads_nodeFrom (pair_of_spans hr _ hk hv (Nat.lt_succ_self _) hij)

/-- The rest of a display whose first item is read already. -/
lemma displayRest_leads {i k : Nat} (hik : i < k) {first : Node}
    (hfirst : first.AllPlaced text ∧ first.Ordered) :
    Leads ls (Spans text ls) i k (displayRest r (startAt ls i) first) :=
  leads_items (displayItem_gives hr) hik hfirst fun _ => spans_display

/-- The rest of a set whose first element is read already. -/
lemma setRest_leads {i k : Nat} (hik : i < k) {first : Node} (hfirst : first.AllPlaced text) :
    Leads ls (Spans text ls) i k (setRest r (startAt ls i) first) := by
  refine leads_items (placed_of_spans (starNamedExpression_gives hr)) hik hfirst ?_
  exact fun items hij hitems => Node.spans_mk rfl (Nat.le_refl i) hij (Nat.le_refl _) hitems

lemma braced_gives : Gives ls (Spans text ls) (braced r) := by
  refine gives_of_leads fun i => leads_startPlace (leads_word (leads_accept ?_ ?_))
  · -- an empty display
    exact leads_nodeFrom (spans_display (by omega) (List.forall_mem_nil _))
  refine (looks_sees "**").bind fun _ => leads_ite ?_ ?_
  · -- a display that starts with a spread
    exact (displayItem_gives hr).bind fun item j hij hitem => displayRest_leads hr hij hitem
  refine (looks_sees "*").bind fun _ => looks_seesName.bind fun _ =>
    (looks_seesSecond ":=").bind fun _ => leads_ite ?_ ?_
  · -- a set or a comprehension that starts with more than an expression
    refine (looks_sees "*").bind fun _ => ?_
    refine (starNamedExpression_gives hr).bind fun e k hik he => ?_
    refine looks_seesClause.bind fun _ => leads_ite ?_ (setRest_leads hr hik he.allPlaced)
    exact leads_comprehension hr "\x7d" hik (List.forall_mem_singleton.2 he.allPlaced)
  refine leads_startPlace (hr.expression.bind fun e k hik he => leads_accept ?_ ?_)
  · refine hr.expression.bind fun v j hkj hv => looks_seesClause.bind fun _ => leads_ite ?_ ?_
    · -- a comprehension of pairs
      exact leads_comprehension hr "\x7d" (by omega) (forall_mem_pair he.allPlaced hv.allPlaced)
    · -- a display that starts with a pair
      refine leads_nodeFrom_bind (.of_reaches fun hij => displayRest_leads hr (by omega) ?_)
      refine pair_of_spans hr _ (he.widen (Nat.le_succ i) (Nat.le_refl k)) hv ?_ hij
      exact Nat.lt_succ_self k
  · refine (looks_notAhead ":=").bind fun _ => looks_seesClause.bind fun _ => leads_ite ?_ ?_
    · exact leads_comprehension hr "\x7d" hik (List.forall_mem_singleton.2 he.allPlaced)
    · exact setRest_leads hr hik he.allPlaced

lemma atom_gives : Gives ls (Spans text ls) (atom r) := by
  refine gives_of_leads fun i => (looks_peek 0).bind fun l => ?_
  have hword : ∀ s c, Leads ls (Spans text ls) i i (constantWord s c) :=
    fun s c => (constantWord_gives text s c).leads widens_spans
  split
  · exact leads_fail
  · split
    · exact (number_gives text).leads widens_spans
    · exact (strings_gives text r).leads widens_spans
    · split
      · exact hword _ _
      · exact hword _ _
      · exact hword _ _
      · exact (nameNode_gives text).leads widens_spans
    · split
      · exact (parenthesized_gives hr).leads widens_spans
      · exact (bracketed_gives hr).leads widens_spans
      · exact (braced_gives hr).leads widens_spans
      · exact hword _ _
      · exact leads_fail
    · exact leads_fail

end

end Grammar

end KeyOrder
