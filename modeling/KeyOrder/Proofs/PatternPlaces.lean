import KeyOrder.Proofs.ExpressionPlaces

/-!
# Where the keys in a pattern stand

The keys of a mapping pattern are not asked to stand anywhere, so of a pattern it only counts what
expressions are in it.  A part of a rule of whose value nothing is said is followed with `Moves`.
-/

namespace KeyOrder

namespace Grammar

open KeyOrder.Parser
open Node (Placed ListPlaced widens_placed leads_placed placed_commaList placed_of_spans
  allPlaced_of_isFree forall_mem_pair)

variable {text : Text} {ls : Array Lexeme} {r : Rules} {i k : Nat}

/-! ### What reads on without a value of interest -/

/-- A parser of whose value nothing is said. -/
def Moves (ls : Array Lexeme) {α : Type} (p : Parser α) : Prop := Gives ls (fun _ _ _ => True) p

lemma moves_of_leads {α : Type} {p : Parser α} (h : ∀ i, Leads ls (fun _ _ _ => True) i i p) :
    Moves ls p := gives_of_leads h

lemma Moves.leads {α : Type} {p : Parser α} (hp : Moves ls p) :
    Leads ls (fun _ _ _ => True) i k p :=
  Gives.leads hp fun _ _ _ _ _ _ _ h => h

lemma moves_many {α : Type} {p : Parser α} (hp : Moves ls p) : Moves ls (many p) :=
  (gives_many (fun _ _ _ _ _ _ _ h => h) hp).mono fun _ _ _ _ => trivial

lemma moves_commaList {α : Type} {p : Parser α} (hp : Moves ls p) : Moves ls (commaList p) :=
  (gives_commaList (fun _ _ _ _ _ _ _ h => h) hp).mono fun _ _ _ _ => trivial

lemma moves_word (s : String) : Moves ls (word s) := (gives_word s).mono fun _ _ _ _ => trivial

lemma moves_oneOf (ops : List String) : Moves ls (oneOf ops) :=
  (gives_oneOf ops).mono fun _ _ _ _ => trivial

lemma moves_name : Moves ls name := (gives_satisfy isName).mono fun _ _ _ _ => trivial

/-! ### Patterns -/

/-- What is left of a complex number after its real part and the sign. -/
lemma leads_imaginary {n value : Node} (hvalue : value.AllPlaced text) :
    Leads ls (Placed text) i k (do
      let m ← number
      if isImaginary n || !isImaginary m then fail
      else nodeFrom (startAt ls i) .group [value, m]) := by
  refine (number_gives text).bind fun m _ _ hm => leads_ite leads_fail ?_
  exact leads_placed rfl (forall_mem_pair hvalue hm.allPlaced)

lemma signedNumber_gives (text : Text) : Gives ls (Placed text) signedNumber := by
  refine gives_of_leads fun i => leads_startPlace (leads_accept_any fun negative _ _ => ?_)
  refine (number_gives text).bind fun n k _ hn => leads_ite (leads_nodeFrom_bind ?_) ?_
  · have hvalue : (Node.mk .group ⟨startAt ls i, stopAt ls k⟩ [n]).AllPlaced text :=
      allPlaced_of_isFree rfl (List.forall_mem_singleton.2 hn.allPlaced)
    exact (moves_oneOf _).optional_bind (fun _ _ _ _ => leads_imaginary hvalue) (leads_pure hvalue)
  · refine leads_pure_bind ((moves_oneOf _).optional_bind (fun _ _ _ _ => ?_) ?_)
    · exact leads_imaginary hn.allPlaced
    · exact leads_pure hn.allPlaced

lemma capture_gives (text : Text) : Gives ls (Placed text) capture := by
  refine gives_of_leads fun i => leads_startPlace (leads_name fun _ _ _ => ?_)
  refine (looks_sees ".").bind fun _ => (looks_sees "(").bind fun _ =>
    (looks_sees "=").bind fun _ => leads_ite leads_fail ?_
  exact leads_placed rfl (List.forall_mem_nil _)

lemma wildcard_gives (text : Text) : Gives ls (Placed text) wildcard :=
  gives_of_leads fun _ => leads_startPlace (leads_word (leads_placed rfl (List.forall_mem_nil _)))

/-- Attributes around a node. -/
lemma allPlaced_attributes {start : Place} {stops : List Place} {n : Node}
    (hn : n.AllPlaced text) :
    (stops.foldl (fun n stop => Node.mk .attribute ⟨start, stop⟩ [n]) n).AllPlaced text := by
  induction stops generalizing n with
  | nil => exact hn
  | cons p stops ih => exact ih (allPlaced_of_isFree rfl (List.forall_mem_singleton.2 hn))

lemma dotted_gives (text : Text) (least : Nat) : Gives ls (Placed text) (dotted least) := by
  have hstop : Moves ls (do word "."; let _ ← name; stopPlace) :=
    moves_of_leads fun _ =>
      leads_word (leads_name fun _ _ _ => leads_stopPlace (leads_pure trivial))
  refine gives_of_leads fun i => leads_startPlace ((nameNode_gives text).bind fun n _ _ hn => ?_)
  refine (moves_many hstop).bind fun stops _ _ _ => leads_ite leads_fail (leads_pure ?_)
  exact allPlaced_attributes hn.allPlaced

section

variable (hr : r.Sound text ls)

include hr

omit hr in
lemma literal_gives (text : Text) (r : Rules) : Gives ls (Placed text) (literal r) := by
  refine gives_of_leads fun i => (looks_peek 0).bind fun l => ?_
  have hnumber : Leads ls (Placed text) i i signedNumber :=
    (signedNumber_gives text).leads widens_placed
  have hword : ∀ s c, Leads ls (Placed text) i i (constantWord s c) :=
    fun s c => (placed_of_spans (constantWord_gives text s c)).leads widens_placed
  split
  · exact leads_fail
  · split
    · exact hnumber
    · exact (placed_of_spans (strings_gives text r)).leads widens_placed
    · exact hnumber
    · split
      · exact hword _ _
      · exact hword _ _
      · exact hword _ _
      · exact leads_fail
    · exact leads_fail

lemma starPattern_gives : Gives ls (Placed text) (starPattern r) := by
  refine gives_of_leads fun i => leads_startPlace (leads_accept ?_ (hr.pattern.leads widens_placed))
  refine (gives_orElse (capture_gives text) (wildcard_gives text)).bind fun _ _ _ _ => ?_
  exact leads_placed rfl (List.forall_mem_nil _)

lemma parenthesizedPattern_gives : Gives ls (Placed text) (parenthesizedPattern r) := by
  refine gives_of_leads fun i => leads_startPlace (leads_word (leads_accept ?_ ?_))
  · exact leads_placed rfl (List.forall_mem_nil _)
  refine (looks_sees "*").bind fun _ => ?_
  refine (placed_commaList (starPattern_gives hr)).bind fun (ps, trailing) _ _ hps => leads_word ?_
  dsimp only at hps ⊢
  split
  · exact leads_ite leads_fail (leads_pure (hps _ List.mem_cons_self))
  · exact leads_placed rfl hps

lemma bracketedPattern_gives : Gives ls (Placed text) (bracketedPattern r) := by
  refine gives_of_leads fun i => leads_startPlace (leads_word (leads_accept ?_ ?_))
  · exact leads_placed rfl (List.forall_mem_nil _)
  · refine (placed_commaList (starPattern_gives hr)).bind fun ps _ _ hps => leads_word ?_
    exact leads_placed rfl hps

lemma keyPattern_gives : Gives ls (Placed text) (keyPattern r) := by
  refine gives_of_leads fun i => leads_startPlace ?_
  refine (gives_orElse (literal_gives text r) (dotted_gives text 1)).bind fun key _ _ hkey => ?_
  refine leads_word (hr.pattern.bind fun p _ _ hp => ?_)
  exact leads_placed rfl (forall_mem_pair hkey hp)

omit hr in
lemma moves_mappingRest : Moves ls mappingRest := by
  refine moves_of_leads fun i => leads_word ((capture_gives []).bind fun _ _ _ _ => ?_)
  exact leads_accept_any fun _ _ _ => (moves_word _).leads

lemma mappingPattern_gives : Gives ls (Placed text) (mappingPattern r) := by
  refine gives_of_leads fun i => leads_startPlace (leads_word (leads_accept ?_ ?_))
  · exact leads_placed rfl (List.forall_mem_nil _)
  refine (looks_sees "**").bind fun _ => leads_ite ?_ ?_
  · refine moves_mappingRest.bind fun _ _ _ _ => ?_
    exact leads_placed rfl (List.forall_mem_nil _)
  refine (placed_commaList (keyPattern_gives hr)).bind fun items _ _ hitems => ?_
  have hnode : ∀ j, Leads ls (Placed text) i j (nodeFrom (startAt ls i) .mapping items.1) :=
    fun _ => leads_placed rfl hitems
  refine leads_ite ((looks_sees "**").bind fun _ => leads_ite ?_ ?_) (leads_word (hnode _))
  · exact moves_mappingRest.bind fun _ j _ _ => hnode j
  · exact leads_word (hnode _)

lemma attributePattern_gives : Gives ls (Placed text) (attributePattern r) :=
  gives_of_leads fun _ => leads_name fun _ _ _ => leads_word (hr.pattern.leads widens_placed)

lemma classPatterns_gives : Gives ls (ListPlaced text) (classPatterns r) := by
  have hplain : Gives ls (Placed text)
      (do if (← seesName) && (← seesSecond "=") then fail else r.pattern) :=
    gives_of_leads fun _ => leads_seesName_seesSecond leads_fail (hr.pattern.leads widens_placed)
  refine gives_of_leads fun i => leads_accept (leads_pure (List.forall_mem_nil _)) ?_
  -- the patterns with names, after those without
  have hnamed : ∀ {ps : List Node} {trailing : Bool} {k}, (∀ p ∈ ps, p.AllPlaced text) →
      Leads ls (ListPlaced text) i k (do
        let more := trailing && (← seesName) && (← seesSecond "=")
        let ks ← do
          if more then
            let list ← commaList (attributePattern r)
            pure list.1
          else pure []
        word ")"
        return ps ++ ks) := by
    intro ps trailing k hps
    refine looks_seesName.bind fun _ => (looks_seesSecond "=").bind fun _ => leads_ite ?_ ?_
    · refine (placed_commaList (attributePattern_gives hr)).bind fun ks _ _ hks => ?_
      exact leads_pure_bind (leads_word (leads_pure (List.forall_mem_append.2 ⟨hps, hks⟩)))
    · refine leads_pure_bind (leads_word (leads_pure ?_))
      exact List.forall_mem_append.2 ⟨hps, List.forall_mem_nil _⟩
  refine looks_seesName.bind fun _ => (looks_seesSecond "=").bind fun _ => leads_ite ?_ ?_
  · exact leads_pure_bind (hnamed (List.forall_mem_nil _))
  · exact (placed_commaList hplain).bind fun ps _ _ hps => hnamed hps

lemma valuePattern_gives : Gives ls (Placed text) (valuePattern r) := by
  refine gives_of_leads fun i => leads_startPlace ((dotted_gives text 0).bind fun n _ _ hn => ?_)
  refine leads_accept ?_ ((looks_sees "=").bind fun _ => leads_ite (leads_pure hn) leads_fail)
  refine (classPatterns_gives hr).bind fun ps _ _ hps => ?_
  exact leads_placed rfl (List.forall_mem_cons.2 ⟨hn, hps⟩)

lemma closedPattern_gives : Gives ls (Placed text) (closedPattern r) :=
  gives_orElse (literal_gives text r) <| gives_orElse (capture_gives text) <|
    gives_orElse (wildcard_gives text) <| gives_orElse (valuePattern_gives hr) <|
      gives_orElse (parenthesizedPattern_gives hr) <| gives_orElse (bracketedPattern_gives hr)
        (mappingPattern_gives hr)

lemma pattern_gives : Gives ls (Placed text) (pattern r) := by
  refine gives_of_leads fun i => leads_startPlace ?_
  have hbound : ∀ {p k}, p.AllPlaced text → Leads ls (Placed text) i k
      ((do
        word "as"
        let _ ← capture
        nodeFrom (startAt ls i) .group [p]) <|> pure p) := by
    intro p k hp
    refine leads_orElse (leads_word ?_) (leads_pure hp)
    refine (capture_gives text).bind fun _ _ _ _ => ?_
    exact leads_placed rfl (List.forall_mem_singleton.2 hp)
  refine (closedPattern_gives hr).bind fun first _ _ hfirst => ?_
  have hrest := gives_many widens_placed (gives_after "|" widens_placed (closedPattern_gives hr))
  refine hrest.bind fun rest _ _ hrest => leads_ite (leads_pure_bind (hbound hfirst)) ?_
  refine leads_nodeFrom_bind (hbound (allPlaced_of_isFree rfl ?_))
  exact List.forall_mem_cons.2 ⟨hfirst, hrest⟩

lemma casePattern_gives : Gives ls (Placed text) (casePattern r) := by
  refine gives_of_leads fun i => leads_startPlace ((looks_sees "*").bind fun _ => ?_)
  refine (placed_commaList (starPattern_gives hr)).bind fun (ps, trailing) _ _ hps => ?_
  dsimp only at hps ⊢
  split
  · exact leads_ite leads_fail (leads_pure (hps _ List.mem_cons_self))
  · exact leads_placed rfl hps

end

end Grammar

end KeyOrder
