import KeyOrder.Proofs.PatternPlaces
import KeyOrder.Syntax.Program

/-!
# Where the keys in a program stand

Nothing is asked of statements but that their keys stand where they should, so all that counts is
the expressions in them.  The rules of the grammar read what they should to every depth, and so does
a whole program.
-/

namespace KeyOrder

namespace Grammar

open KeyOrder.Parser
open Node (Placed ListPlaced widens_listPlaced leads_placed placed_commaList placed_many1
  placed_of_spans allPlaced_bundle forall_mem_pair)

variable {text : Text} {ls : Array Lexeme} {r : Rules} {i k : Nat}

/-! ### Simple statements -/

lemma moves_dottedName : Moves ls dottedName := by
  have hname : Moves ls (do word "."; name) :=
    moves_of_leads fun _ => leads_word moves_name.leads
  refine moves_of_leads fun i => leads_name fun _ _ _ => ?_
  exact (moves_many hname).bind fun _ _ _ _ => leads_pure trivial

lemma moves_asName : Moves ls asName :=
  moves_of_leads fun _ =>
    leads_accept (leads_name fun _ _ _ => leads_pure trivial) (leads_pure trivial)

lemma importStatement_gives (text : Text) : Gives ls (ListPlaced text) importStatement := by
  have hmodule : Moves ls (do dottedName; asName) :=
    moves_of_leads fun _ => moves_dottedName.bind fun _ _ _ _ => moves_asName.leads
  refine gives_of_leads fun i => leads_word ((moves_commaList hmodule).bind fun _ _ _ _ => ?_)
  exact leads_ite leads_fail (leads_pure (List.forall_mem_nil _))

lemma moves_importedNames : Moves ls importedNames := by
  have hone : Moves ls (do let _ ← name; asName) :=
    moves_of_leads fun _ => leads_name fun _ _ _ => moves_asName.leads
  refine moves_of_leads fun i => leads_accept (leads_pure trivial) (leads_accept ?_ ?_)
  · exact (moves_commaList hone).bind fun _ _ _ _ => (moves_word _).leads
  · exact (moves_commaList hone).bind fun _ _ _ _ => leads_ite leads_fail (leads_pure trivial)

lemma fromStatement_gives (text : Text) : Gives ls (ListPlaced text) fromStatement := by
  have hend : ∀ {i k}, Leads ls (ListPlaced text) i k (do
      word "import"
      importedNames
      return []) :=
    leads_word (moves_importedNames.bind fun _ _ _ _ => leads_pure (List.forall_mem_nil _))
  refine gives_of_leads fun i => leads_word ((moves_many (moves_oneOf _)).bind fun _ _ _ _ => ?_)
  refine moves_dottedName.optional_bind (fun _ _ _ _ => ?_) ?_
  · exact leads_ite leads_fail hend
  · exact leads_ite leads_fail hend

lemma namesStatement_gives (text : Text) (s : String) :
    Gives ls (ListPlaced text) (namesStatement s) := by
  refine gives_of_leads fun i => leads_word ((moves_commaList moves_name).bind fun _ _ _ _ => ?_)
  exact leads_ite leads_fail (leads_pure (List.forall_mem_nil _))

section

variable (hr : r.Sound text ls)

include hr

lemma expressionStatement_gives : Gives ls (ListPlaced text) (expressionStatement r) := by
  have hvalue := yieldOrExpressions_gives hr
  refine gives_of_leads fun i => hvalue.bind fun first _ _ hfirst => leads_accept ?_ ?_
  · -- an annotation, perhaps with a value
    refine leads_ite (hr.expression.bind fun a _ _ ha => leads_accept ?_ ?_) leads_fail
    · refine hvalue.bind fun v _ _ hv => leads_pure ?_
      refine List.forall_mem_cons.2 ⟨hfirst.allPlaced, ?_⟩
      exact forall_mem_pair ha.allPlaced hv.allPlaced
    · exact leads_pure (forall_mem_pair hfirst.allPlaced ha.allPlaced)
  refine (moves_oneOf _).optional_bind (fun _ _ _ _ => leads_ite ?_ leads_fail) ?_
  · refine hvalue.bind fun v _ _ hv => leads_pure ?_
    exact forall_mem_pair hfirst.allPlaced hv.allPlaced
  · refine (Node.gives_many_after hvalue "=").bind fun more _ _ hmore => ?_
    exact leads_ite (leads_pure (List.forall_mem_cons.2 ⟨hfirst.allPlaced, hmore⟩)) leads_fail

lemma restOfStatement_gives : Gives ls (ListPlaced text) (restOfStatement r) := by
  refine gives_of_leads fun i => looks_seesEnd.bind fun _ => leads_ite ?_ ?_
  · exact leads_pure (List.forall_mem_nil _)
  · refine (starExpressions_gives hr).bind fun e _ _ he => leads_pure ?_
    exact List.forall_mem_singleton.2 he.allPlaced

lemma raiseStatement_gives : Gives ls (ListPlaced text) (raiseStatement r) := by
  refine gives_of_leads fun i => leads_word (looks_seesEnd.bind fun _ => leads_ite ?_ ?_)
  · exact leads_pure (List.forall_mem_nil _)
  refine hr.expression.bind fun e _ _ he => leads_accept ?_ ?_
  · refine hr.expression.bind fun cause _ _ hcause => leads_pure ?_
    exact forall_mem_pair he.allPlaced hcause.allPlaced
  · exact leads_pure (List.forall_mem_singleton.2 he.allPlaced)

lemma deleteStatement_gives : Gives ls (ListPlaced text) (deleteStatement r) := by
  refine gives_of_leads fun i => leads_word ?_
  refine (placed_commaList (placed_of_spans hr.primary)).bind fun ts _ _ hts => ?_
  exact looks_seesEnd.bind fun _ => leads_ite (leads_pure hts) leads_fail

lemma assertStatement_gives : Gives ls (ListPlaced text) (assertStatement r) := by
  refine gives_of_leads fun i => leads_word ?_
  refine hr.expression.bind fun e _ _ he => leads_accept ?_ ?_
  · refine hr.expression.bind fun m _ _ hm => leads_pure ?_
    exact forall_mem_pair he.allPlaced hm.allPlaced
  · exact leads_pure (List.forall_mem_singleton.2 he.allPlaced)

lemma simpleStatement_gives : Gives ls (ListPlaced text) (simpleStatement r) := by
  have hexpression := expressionStatement_gives hr
  refine gives_of_leads fun i => (looks_peek 0).bind fun l => ?_
  -- a statement of one word has no parts
  have hword : ∀ s, Leads ls (ListPlaced text) i i (do word s; return []) :=
    fun s => leads_word (leads_pure (List.forall_mem_nil _))
  split
  · exact leads_fail
  · refine leads_ite (hexpression.leads widens_listPlaced) ?_
    split
    · exact hword _
    · exact hword _
    · exact hword _
    · exact leads_word ((restOfStatement_gives hr).leads widens_listPlaced)
    · exact (importStatement_gives text).leads widens_listPlaced
    · exact (fromStatement_gives text).leads widens_listPlaced
    · exact (raiseStatement_gives hr).leads widens_listPlaced
    · exact (namesStatement_gives text _).leads widens_listPlaced
    · exact (namesStatement_gives text _).leads widens_listPlaced
    · exact (deleteStatement_gives hr).leads widens_listPlaced
    · exact (assertStatement_gives hr).leads widens_listPlaced
    · exact hexpression.leads widens_listPlaced

omit hr in
/-- Parts of several statements, each statement bundled. -/
lemma listPlaced_map_bundle {nss : List (List Node)}
    (h : ∀ ns ∈ nss, ∀ n ∈ ns, n.AllPlaced text) : ∀ n ∈ nss.map Node.bundle, n.AllPlaced text := by
  intro n hn
  obtain ⟨ns, hns, rfl⟩ := List.mem_map.1 hn
  exact allPlaced_bundle (h ns hns)

omit hr in
lemma listPlaced_flatten {nss : List (List Node)}
    (h : ∀ ns ∈ nss, ∀ n ∈ ns, n.AllPlaced text) : ∀ n ∈ nss.flatten, n.AllPlaced text := by
  intro n hn
  obtain ⟨ns, hns, hn⟩ := List.mem_flatten.1 hn
  exact h ns hns n hn

lemma simpleStatements_gives : Gives ls (ListPlaced text) (simpleStatements r) := by
  have hrest := gives_many widens_listPlaced
    (gives_after ";" widens_listPlaced (simpleStatement_gives hr))
  refine gives_of_leads fun i => (simpleStatement_gives hr).bind fun first _ _ hfirst => ?_
  refine hrest.bind fun rest _ _ hrest => leads_accept_any fun _ _ _ => leads_ofKind fun _ => ?_
  exact leads_pure (listPlaced_map_bundle (List.forall_mem_cons.2 ⟨hfirst, hrest⟩))

/-! ### Compound statements -/

lemma body_gives : Gives ls (ListPlaced text) (body r) :=
  gives_after ":" widens_listPlaced hr.block

lemma elseBody_gives : Gives ls (ListPlaced text) (elseBody r) := by
  refine gives_of_leads fun i => leads_accept ?_ (leads_pure (List.forall_mem_nil _))
  exact (body_gives hr).leads widens_listPlaced

lemma ifRest_gives (n : Nat) : Gives ls (ListPlaced text) (ifRest r n) := by
  induction n with
  | zero => exact gives_fail
  | succ n ih =>
    refine gives_of_leads fun i => (namedExpression_gives hr).bind fun test _ _ htest => ?_
    refine (body_gives hr).bind fun b _ _ hb => ?_
    have hparts := List.forall_mem_cons.2 ⟨htest.allPlaced, hb⟩
    refine leads_accept (ih.bind fun rest _ _ hrest => leads_pure ?_) ?_
    · refine List.forall_mem_append.2 ⟨hparts, ?_⟩
      exact List.forall_mem_singleton.2 (allPlaced_bundle hrest)
    · refine (elseBody_gives hr).bind fun e _ _ he => leads_pure ?_
      exact List.forall_mem_append.2 ⟨hparts, he⟩

lemma ifStatement_gives : Gives ls (ListPlaced text) (ifStatement r) :=
  gives_of_leads fun _ => leads_word (looks_size.bind fun n =>
    (ifRest_gives hr n).leads widens_listPlaced)

lemma whileStatement_gives : Gives ls (ListPlaced text) (whileStatement r) := by
  refine gives_of_leads fun i => leads_word ?_
  refine (namedExpression_gives hr).bind fun test _ _ htest => ?_
  refine (body_gives hr).bind fun b _ _ hb => (elseBody_gives hr).bind fun e _ _ he => ?_
  refine leads_pure (List.forall_mem_append.2 ⟨?_, he⟩)
  exact List.forall_mem_cons.2 ⟨htest.allPlaced, hb⟩

lemma forStatement_gives : Gives ls (ListPlaced text) (forStatement r) := by
  refine gives_of_leads fun i => leads_word ?_
  refine (starTargets_gives hr).bind fun target _ _ htarget => leads_word ?_
  refine (starExpressions_gives hr).bind fun source _ _ hsource => ?_
  refine (body_gives hr).bind fun b _ _ hb => (elseBody_gives hr).bind fun e _ _ he => ?_
  refine leads_pure (List.forall_mem_append.2 ⟨?_, he⟩)
  exact List.forall_mem_cons.2
    ⟨htarget.allPlaced, List.forall_mem_cons.2 ⟨hsource.allPlaced, hb⟩⟩

lemma withItem_gives : Gives ls (Placed text) (withItem r) := by
  refine gives_of_leads fun i => hr.expression.bind fun e _ _ he => leads_orElse ?_ ?_
  · refine leads_word ((starTarget_gives hr).bind fun t _ _ ht => ?_)
    refine (looks_sees ",").bind fun _ => (looks_sees ")").bind fun _ =>
      (looks_sees ":").bind fun _ => leads_ite (leads_pure ?_) leads_fail
    exact allPlaced_bundle (forall_mem_pair he.allPlaced ht.allPlaced)
  · exact leads_pure (allPlaced_bundle (List.forall_mem_singleton.2 he.allPlaced))

lemma withStatement_gives : Gives ls (ListPlaced text) (withStatement r) := by
  have hlist := placed_commaList (withItem_gives hr)
  refine gives_of_leads fun i => leads_word ?_
  refine (gives_orElse (P := ListPlaced text) ?wrapped ?plain).bind fun items _ _ hitems => ?_
  case wrapped =>
    refine gives_of_leads fun _ => leads_word (hlist.bind fun _ _ _ hitems => leads_word ?_)
    exact (looks_sees ":").bind fun _ => leads_ite (leads_pure hitems) leads_fail
  case plain =>
    refine gives_of_leads fun _ => hlist.bind fun _ _ _ hitems => ?_
    exact leads_ite leads_fail (leads_pure hitems)
  refine (body_gives hr).bind fun b _ _ hb => leads_pure ?_
  exact List.forall_mem_append.2 ⟨hitems, hb⟩

lemma handler_gives (star : Bool) : Gives ls (Placed text) (handler r star) := by
  refine gives_of_leads fun i => leads_word ?_
  have hrest : ∀ k, Leads ls (Placed text) i k (do
      let bare ← sees ":"
      if bare && !star then
        let b ← body r
        return .bundle b
      else
        let e ← r.expression
        asName
        let b ← body r
        return .bundle (e :: b)) := by
    intro k
    refine (looks_sees ":").bind fun _ => leads_ite ?_ ?_
    · exact (body_gives hr).bind fun b _ _ hb => leads_pure (allPlaced_bundle hb)
    · refine hr.expression.bind fun e _ _ he => moves_asName.bind fun _ _ _ _ => ?_
      refine (body_gives hr).bind fun b _ _ hb => leads_pure (allPlaced_bundle ?_)
      exact List.forall_mem_cons.2 ⟨he.allPlaced, hb⟩
  exact leads_ite (leads_word (hrest _)) (leads_pure_bind (hrest _))

lemma tryStatement_gives : Gives ls (ListPlaced text) (tryStatement r) := by
  have hfinal : Gives ls (ListPlaced text) (do word "finally"; body r) :=
    gives_after "finally" widens_listPlaced (body_gives hr)
  have hhandlers := gives_orElse (placed_many1 (handler_gives hr true))
    (placed_many1 (handler_gives hr false))
  refine gives_of_leads fun i => leads_word ((body_gives hr).bind fun b _ _ hb => ?_)
  refine (looks_sees "finally").bind fun _ => leads_ite ?_ ?_
  · exact hfinal.bind fun f _ _ hf => leads_pure (List.forall_mem_append.2 ⟨hb, hf⟩)
  refine hhandlers.bind fun hs _ _ hhs => (elseBody_gives hr).bind fun e _ _ he => ?_
  have hparts := List.forall_mem_append.2 ⟨List.forall_mem_append.2 ⟨hb, hhs⟩, he⟩
  refine hfinal.optional_bind (fun f _ _ hf => leads_pure ?_) (leads_pure ?_)
  · exact List.forall_mem_append.2 ⟨hparts, hf⟩
  · exact List.forall_mem_append.2 ⟨hparts, List.forall_mem_nil _⟩

lemma functionStatement_gives {decorators : List Node}
    (hds : ∀ n ∈ decorators, n.AllPlaced text) :
    Gives ls (ListPlaced text) (functionStatement r decorators) := by
  refine gives_of_leads fun i => leads_word (leads_name fun _ _ _ => leads_word ?_)
  refine (parameters_gives hr true ")").bind fun ps _ _ hps => leads_word ?_
  have hbody : ∀ result k, (∀ n ∈ result, n.AllPlaced text) →
      Leads ls (ListPlaced text) i k (do
        let b ← body r
        return .bundle ps :: b ++ decorators ++ result) := by
    intro result k hresult
    refine (body_gives hr).bind fun b _ _ hb => leads_pure ?_
    refine List.forall_mem_append.2 ⟨List.forall_mem_append.2 ⟨?_, hds⟩, hresult⟩
    exact List.forall_mem_cons.2 ⟨allPlaced_bundle hps, hb⟩
  refine leads_accept ?_ (leads_pure_bind (hbody [] _ (List.forall_mem_nil _)))
  refine hr.expression.bind fun e _ _ he => leads_pure_bind (hbody [e] _ ?_)
  exact List.forall_mem_singleton.2 he.allPlaced

lemma classStatement_gives {decorators : List Node}
    (hds : ∀ n ∈ decorators, n.AllPlaced text) :
    Gives ls (ListPlaced text) (classStatement r decorators) := by
  refine gives_of_leads fun i => leads_word (leads_name fun _ _ _ => ?_)
  have hbody : ∀ (as : List Node) k, (∀ n ∈ as, n.AllPlaced text) →
      Leads ls (ListPlaced text) i k (do
        let b ← body r
        let parts := as.partition Node.isKeyword
        return parts.2 ++ parts.1 ++ b ++ decorators) := by
    intro as k has
    have hparts : ∀ n ∈ (as.partition Node.isKeyword).2 ++ (as.partition Node.isKeyword).1,
        n.AllPlaced text := by
      intro n hn
      simp only [List.partition_eq_filter_filter, List.mem_append, List.mem_filter] at hn
      rcases hn with hn | hn
      · exact has n hn.1
      · exact has n hn.1
    refine (body_gives hr).bind fun b _ _ hb => leads_pure ?_
    exact List.forall_mem_append.2 ⟨List.forall_mem_append.2 ⟨hparts, hb⟩, hds⟩
  refine leads_accept ?_ (leads_pure_bind (hbody [] _ (List.forall_mem_nil _)))
  exact (arguments_gives hr).bind fun as _ _ has => leads_word (leads_pure_bind (hbody as _ has))

lemma decoratedStatement_gives : Gives ls (ListPlaced text) (decoratedStatement r) := by
  have hone : Gives ls (Placed text)
      (do word "@"; let e ← namedExpression r; let _ ← ofKind .newline; return e) :=
    gives_of_leads fun _ => leads_word ((namedExpression_gives hr).bind fun e _ _ he =>
      leads_ofKind fun _ => leads_pure he.allPlaced)
  refine gives_of_leads fun i => (placed_many1 hone).bind fun ds _ _ hds => ?_
  refine (looks_sees "class").bind fun _ => leads_ite ?_ (leads_accept_any fun _ _ _ => ?_)
  · exact (classStatement_gives hr hds).leads widens_listPlaced
  · exact (functionStatement_gives hr hds).leads widens_listPlaced

lemma asyncStatement_gives : Gives ls (ListPlaced text) (asyncStatement r) := by
  refine gives_of_leads fun i => leads_word ((looks_sees "def").bind fun _ => leads_ite ?_ ?_)
  · exact (functionStatement_gives hr (List.forall_mem_nil _)).leads widens_listPlaced
  refine (looks_sees "for").bind fun _ => leads_ite ?_ ?_
  · exact (forStatement_gives hr).leads widens_listPlaced
  · exact (withStatement_gives hr).leads widens_listPlaced

lemma caseBlock_gives : Gives ls (Placed text) (caseBlock r) := by
  refine gives_of_leads fun i => leads_word ((casePattern_gives hr).bind fun p _ _ hp => ?_)
  have hbody : ∀ guard k, (∀ n ∈ guard, n.AllPlaced text) → Leads ls (Placed text) i k (do
      let b ← body r
      return .bundle (p :: guard ++ b)) := by
    intro guard k hguard
    refine (body_gives hr).bind fun b _ _ hb => leads_pure (allPlaced_bundle ?_)
    exact List.forall_mem_append.2 ⟨List.forall_mem_cons.2 ⟨hp, hguard⟩, hb⟩
  refine leads_accept ?_ (leads_pure_bind (hbody [] _ (List.forall_mem_nil _)))
  refine (namedExpression_gives hr).bind fun e _ _ he => leads_pure_bind (hbody [e] _ ?_)
  exact List.forall_mem_singleton.2 he.allPlaced

lemma subject_gives : Gives ls (Placed text) (subject r) := by
  have hitems := placed_commaList (placed_of_spans (starNamedExpression_gives hr))
  refine gives_of_leads fun i => leads_startPlace ((looks_sees "*").bind fun _ => ?_)
  refine hitems.bind fun (es, trailing) _ _ hes => ?_
  dsimp only at hes ⊢
  split
  · exact leads_ite leads_fail (leads_pure (hes _ List.mem_cons_self))
  · exact leads_placed rfl hes

lemma matchStatement_gives : Gives ls (ListPlaced text) (matchStatement r) := by
  refine gives_of_leads fun i => leads_word ((subject_gives hr).bind fun s _ _ hs => ?_)
  refine leads_word (leads_ofKind fun _ => leads_ofKind fun _ => ?_)
  refine (placed_many1 (caseBlock_gives hr)).bind fun cs _ _ hcs => leads_ofKind fun _ => ?_
  exact leads_pure (List.forall_mem_cons.2 ⟨hs, hcs⟩)

omit hr in
/-- A compound statement is one part of a program. -/
lemma compound_gives {p : Parser (List Node)} (hp : Gives ls (ListPlaced text) p) :
    Gives ls (ListPlaced text) (do let parts ← p; return [Node.bundle parts]) :=
  gives_of_leads fun _ => hp.bind fun _ _ _ hparts =>
    leads_pure (List.forall_mem_singleton.2 (allPlaced_bundle hparts))

lemma statement_gives : Gives ls (ListPlaced text) (statement r) := by
  refine gives_of_leads fun i => (looks_peek 0).bind fun l => ?_
  have hsimple : Leads ls (ListPlaced text) i i (simpleStatements r) :=
    (simpleStatements_gives hr).leads widens_listPlaced
  have hcompound : ∀ {p : Parser (List Node)}, Gives ls (ListPlaced text) p →
      Leads ls (ListPlaced text) i i (do let parts ← p; return [Node.bundle parts]) :=
    fun hp => (compound_gives hp).leads widens_listPlaced
  split
  · exact leads_fail
  · split
    · split
      · exact hcompound (ifStatement_gives hr)
      · exact hcompound (whileStatement_gives hr)
      · exact hcompound (forStatement_gives hr)
      · exact hcompound (withStatement_gives hr)
      · exact hcompound (tryStatement_gives hr)
      · exact hcompound (functionStatement_gives hr (List.forall_mem_nil _))
      · exact hcompound (classStatement_gives hr (List.forall_mem_nil _))
      · exact hcompound (asyncStatement_gives hr)
      · exact leads_orElse (hcompound (matchStatement_gives hr)) hsimple
      · exact hsimple
    · exact leads_ite (hcompound (decoratedStatement_gives hr)) hsimple
    · exact hsimple
    · exact hsimple
    · exact leads_fail

lemma block_gives : Gives ls (ListPlaced text) (block r) := by
  refine gives_of_leads fun i => (looks_peek 0).bind fun _ => leads_ite ?_ ?_
  · refine leads_ofKind fun _ => leads_ofKind fun _ => ?_
    refine (gives_many1 widens_listPlaced (statement_gives hr)).bind fun ss _ _ hss => ?_
    exact leads_ofKind fun _ => leads_pure (listPlaced_flatten hss.2)
  · exact (simpleStatements_gives hr).leads widens_listPlaced

lemma program_gives : Gives ls (Placed text) (program r) := by
  refine gives_of_leads fun i => ?_
  refine (gives_many widens_listPlaced (statement_gives hr)).bind fun ss _ _ hss => ?_
  exact leads_ofKind fun _ => leads_pure (allPlaced_bundle (listPlaced_flatten hss))

end

/-! ### Rules to a depth -/

/-- The rules to each depth read what they should. -/
lemma sound_rules (n : Nat) (hfits : Lexeme.Fits text ls) : (rules n).Sound text ls := by
  induction n with
  | zero =>
    exact ⟨hfits, gives_fail, gives_fail, gives_fail, gives_fail, gives_fail, gives_fail,
      gives_fail, gives_fail⟩
  | succ n hr =>
    exact ⟨hfits, expression_gives hr, disjunction_gives hr, operand_gives hr, inversion_gives hr,
      factor_gives hr, primary_gives hr, pattern_gives hr, block_gives hr⟩

end Grammar

/-- The keys of a program stand where they should. -/
theorem Node.allPlaced_of_ofText? {text : Text} {n : Node} (h : ofText? text = some n) :
    n.AllPlaced (Lexeme.normalize text) := by
  obtain ⟨ls, j, hls, hread⟩ := ofText?_eq_some h
  exact (Grammar.program_gives (Grammar.sound_rules _ (Lexeme.fits_of_cut hls)) 0 n j hread).2

end KeyOrder
