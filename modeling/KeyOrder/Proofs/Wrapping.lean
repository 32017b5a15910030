import KeyOrder.Container.Walk
import KeyOrder.Proofs.Neighbours
import Mathlib.Order.Bounds.Basic

/-!
# Parentheses around a range

A range is unwrapped round by round: as long as the nearest code before it is an opening parenthesis
that starts after the floor and the nearest code after it is a closing one, it takes in both.  Every
round passes over the nearest token on either side, so that what is left to look at is a list with
its head gone; this carries all that is said of the loop.

* `Source.Unwraps` is the loop, with the number of its rounds;
* `Source.Wraps` and `Source.reach` say without a loop what stands around a range, and how far that
  goes;
* `Source.Ordered.unwrap_greatest` says that the loop ends, and that it takes in as many pairs of
  parentheses as there are.
-/

namespace KeyOrder

/-- An offset inside a range. -/
def Range.Covers (r : Range) (i : Nat) : Prop := r.start ≤ i ∧ i < r.stop

instance (r : Range) (i : Nat) : Decidable (r.Covers i) := inferInstanceAs (Decidable (_ ∧ _))

/-- A token in which a range starts or ends, neither at its start nor at its end. -/
def Token.CutBy (t : Token) (r : Range) : Prop :=
  (t.range.start < r.start ∧ r.start < t.range.stop) ∨
    (t.range.start < r.stop ∧ r.stop < t.range.stop)

instance (t : Token) (r : Range) : Decidable (t.CutBy r) := inferInstanceAs (Decidable (_ ∨ _))

section Lists

variable {α : Type} {l rest : List α} {a b : α}

/-- A narrower condition that fails only on the first of the selected elements selects the rest. -/
lemma filter_eq_tail {p q : α → Bool} (hl : l.filter p = a :: rest)
    (hqp : ∀ x ∈ l, q x = true → p x = true) (ha : q a = false)
    (hrest : ∀ x ∈ rest, q x = true) : l.filter q = rest := by
  calc l.filter q = (l.filter p).filter q := by
        rw [List.filter_filter]
        refine List.filter_congr fun x hx => Bool.eq_iff_iff.2 ?_
        rw [Bool.and_eq_true]
        exact ⟨fun hq => ⟨hq, hqp x hx hq⟩, And.left⟩
    _ = rest := by rw [hl, List.filter_cons_of_neg (by simp [ha]), List.filter_eq_self.2 hrest]

/-- An element of a list in order that does not come after the one at an index stands up to it. -/
lemma mem_take_of_not_rel {R : α → α → Prop} (h : l.Pairwise R) {k : Nat}
    (ha : l[k]? = some a) (hb : b ∈ l) (hab : ¬R a b) : b ∈ l.take (k + 1) := by
  obtain ⟨hk, rfl⟩ := List.getElem?_eq_some_iff.1 ha
  rw [← List.take_append_drop (k + 1) l] at hb h
  rcases List.mem_append.1 hb with hb | hb
  · exact hb
  · refine absurd ((List.pairwise_append.1 h).2.2 _ ?_ b hb) hab
    exact List.mem_take_iff_getElem.2 ⟨k, by omega, rfl⟩

end Lists

namespace Source

variable {src : Source} {floor offset k : Nat} {r r' out : Range} {t : Token} {ts : List Token}

/-! ### Code on either side -/

/-- The code that ends by an offset, the nearest first. -/
def codeUpTo (src : Source) (offset : Nat) : List Token :=
  src.tokens.toList.reverse.filter fun t => !t.isComment && decide (t.range.stop ≤ offset)

/-- The code that starts from an offset on, the nearest first. -/
def codeFrom (src : Source) (offset : Nat) : List Token :=
  src.tokens.toList.filter fun t => !t.isComment && decide (offset ≤ t.range.start)

lemma mem_codeUpTo : t ∈ src.codeUpTo offset ↔
    t ∈ src.tokens.toList ∧ t.isComment = false ∧ t.range.stop ≤ offset := by
  simp [codeUpTo]

lemma mem_codeFrom : t ∈ src.codeFrom offset ↔
    t ∈ src.tokens.toList ∧ t.isComment = false ∧ offset ≤ t.range.start := by
  simp [codeFrom]

namespace Ordered

variable (h : src.Ordered)

include h

lemma codeBefore_eq_head? (offset : Nat) :
    src.codeBefore offset = (src.codeUpTo offset).head? := by
  rw [codeBefore, h.tokenBefore_eq_getLast?, codeUpTo, List.filter_reverse, List.head?_reverse]
  rfl

lemma codeAfter_eq_head? (offset : Nat) :
    src.codeAfter offset = (src.codeFrom offset).head? := by
  rw [codeAfter, h.tokenAfter_eq_find?, codeFrom, List.head?_filter]
  rfl

lemma pairwise_codeUpTo (offset : Nat) :
    (src.codeUpTo offset).Pairwise fun a b => b.Before a :=
  (List.pairwise_reverse.2 h.pairwise).filter _

lemma pairwise_codeFrom (offset : Nat) : (src.codeFrom offset).Pairwise Token.Before :=
  h.pairwise.filter _

/-- Before the nearest token comes the rest of the code. -/
lemma codeUpTo_start (hcode : src.codeUpTo offset = t :: ts) :
    src.codeUpTo t.range.start = ts := by
  have ht := mem_codeUpTo.1 (hcode ▸ List.mem_cons_self)
  have hnonempty := h.nonempty t ht.1
  have hbefore := List.pairwise_cons.1 (hcode ▸ h.pairwise_codeUpTo offset)
  refine filter_eq_tail hcode (fun u _ hu => ?_) ?_ fun u hu => ?_
  · simp only [Bool.and_eq_true, decide_eq_true_eq] at hu ⊢
    exact ⟨hu.1, by omega⟩
  · simp only [Bool.and_eq_false_iff, decide_eq_false_iff_not]
    omega
  · have hcomment := (mem_codeUpTo.1 (hcode ▸ List.mem_cons_of_mem t hu)).2.1
    simp [hcomment, (hbefore.1 u hu).2.1]

/-- After the nearest token comes the rest of the code. -/
lemma codeFrom_stop (hcode : src.codeFrom offset = t :: ts) :
    src.codeFrom t.range.stop = ts := by
  have ht := mem_codeFrom.1 (hcode ▸ List.mem_cons_self)
  have hnonempty := h.nonempty t ht.1
  have hafter := List.pairwise_cons.1 (hcode ▸ h.pairwise_codeFrom offset)
  refine filter_eq_tail hcode (fun u _ hu => ?_) ?_ fun u hu => ?_
  · simp only [Bool.and_eq_true, decide_eq_true_eq] at hu ⊢
    exact ⟨hu.1, by omega⟩
  · simp only [Bool.and_eq_false_iff, decide_eq_false_iff_not]
    omega
  · have hcomment := (mem_codeFrom.1 (hcode ▸ List.mem_cons_of_mem t hu)).2.1
    simp [hcomment, (hafter.1 u hu).2.1]

end Ordered

/-! ### The loop -/

/-- One round: the range with the nearest parentheses around it, none when the loop stops. -/
def unwrapOnce (src : Source) (floor : Nat) (r : Range) : Option Range :=
  match src.codeBefore r.start, src.codeAfter r.stop with
  | some before, some after =>
    if before.is "(" && after.is ")" && floor < before.range.start then
      some ⟨before.range.start, after.range.stop⟩
    else none
  | _, _ => none

/-- The loop started with a range stops after so many rounds, with the other range. -/
inductive Unwraps (src : Source) (floor : Nat) : Nat → Range → Range → Prop where
  | stop {r : Range} (hstop : src.unwrapOnce floor r = none) : Unwraps src floor 0 r r
  | round {k : Nat} {r r' out : Range} (hround : src.unwrapOnce floor r = some r')
      (hrest : Unwraps src floor k r' out) : Unwraps src floor (k + 1) r out

/-- Where the loop stops there is nothing to take in. -/
lemma Unwraps.unwrapOnce_eq_none (hrun : src.Unwraps floor k r out) :
    src.unwrapOnce floor out = none := by
  induction hrun with
  | stop hstop => exact hstop
  | round _ _ ih => exact ih

/-- A range at which the loop stops at once is kept. -/
lemma Unwraps.eq_of_eq_none (hrun : src.Unwraps floor k r out)
    (hnone : src.unwrapOnce floor r = none) : out = r := by
  cases hrun with
  | stop => rfl
  | round hround _ => rw [hnone] at hround; cases hround

namespace Ordered

variable (h : src.Ordered)

include h

/-- A round takes one token from the code on either side. -/
lemma unwrapOnce_eq_some : src.unwrapOnce floor r = some r' ↔
    ∃ o os c cs, src.codeUpTo r.start = o :: os ∧ src.codeFrom r.stop = c :: cs ∧
      (o.is "(" = true ∧ floor < o.range.start) ∧ c.is ")" = true ∧
        ⟨o.range.start, c.range.stop⟩ = r' := by
  rw [unwrapOnce, h.codeBefore_eq_head?, h.codeAfter_eq_head?]
  constructor
  · intro hround
    cases hup : src.codeUpTo r.start with
    | nil => simp [hup] at hround
    | cons o os =>
      cases hdown : src.codeFrom r.stop with
      | nil => simp [hup, hdown] at hround
      | cons c cs =>
        simp only [hup, hdown, List.head?_cons, Bool.and_eq_true, decide_eq_true_eq,
          Option.ite_none_right_eq_some, Option.some.injEq] at hround
        obtain ⟨⟨⟨hopen, hclose⟩, hfloor⟩, hr'⟩ := hround
        exact ⟨o, os, c, cs, rfl, rfl, ⟨hopen, hfloor⟩, hclose, hr'⟩
  · rintro ⟨o, os, c, cs, hup, hdown, ⟨hopen, hfloor⟩, hclose, rfl⟩
    simp [hup, hdown, hopen, hclose, hfloor]

/-- The loop comes to an end, with the range of `unwrap`, whose own test that the start of the range
moves is never what stops it. -/
lemma unwraps_unwrap (floor : Nat) (r : Range) :
    ∃ k, src.Unwraps floor k r (src.unwrap floor r) := by
  fun_induction src.unwrap floor r with
  | case1 r before after hafter hbefore hwraps _ ih =>
    obtain ⟨k, hrun⟩ := ih
    exact ⟨k + 1, .round (by simp only [unwrapOnce, hbefore, hafter, if_pos hwraps]) hrun⟩
  | case2 r before after _ hbefore _ hle =>
    -- the token before a range ends by its start and is not empty
    obtain ⟨hmem, -, hstop, -⟩ := h.tokenBefore_eq_some.1 hbefore
    have hnonempty := h.nonempty before hmem
    omega
  | case3 r before after hafter hbefore hwraps =>
    exact ⟨0, .stop (by simp only [unwrapOnce, hbefore, hafter, if_neg hwraps])⟩
  | case4 r hnone =>
    refine ⟨0, .stop ?_⟩
    unfold unwrapOnce
    split
    · rename_i hbefore hafter
      exact absurd hafter (hnone _ _ hbefore)
    · rfl

end Ordered

/-! ### What stands around a range -/

/-- The `k` nearest tokens before a range are opening parentheses after the floor, and the `k`
nearest after it are closing ones; comments do not count. -/
structure Wraps (src : Source) (floor : Nat) (r : Range) (k : Nat) : Prop where
  opens_length : k ≤ (src.codeUpTo r.start).length
  closes_length : k ≤ (src.codeFrom r.stop).length
  opening : ∀ t ∈ (src.codeUpTo r.start).take k, t.is "(" = true ∧ floor < t.range.start
  closing : ∀ t ∈ (src.codeFrom r.stop).take k, t.is ")" = true

lemma wraps_iff : src.Wraps floor r k ↔
    (k ≤ (src.codeUpTo r.start).length ∧ k ≤ (src.codeFrom r.stop).length) ∧
      (∀ t ∈ (src.codeUpTo r.start).take k, t.is "(" = true ∧ floor < t.range.start) ∧
        ∀ t ∈ (src.codeFrom r.stop).take k, t.is ")" = true :=
  ⟨fun hk => ⟨⟨hk.1, hk.2⟩, hk.3, hk.4⟩, fun hk => ⟨hk.1.1, hk.1.2, hk.2.1, hk.2.2⟩⟩

/-- The range from the start of the `k`-th token before a range to the end of the `k`-th one after
it, and the range itself for none; comments do not count. -/
def reach (src : Source) (r : Range) : Nat → Range
  | 0 => r
  | k + 1 =>
    match (src.codeUpTo r.start)[k]?, (src.codeFrom r.stop)[k]? with
    | some o, some c => ⟨o.range.start, c.range.stop⟩
    | _, _ => r

lemma wraps_zero : src.Wraps floor r 0 := ⟨Nat.zero_le _, Nat.zero_le _, by simp, by simp⟩

/-- The tokens at which the range of some pairs starts and ends. -/
lemma Wraps.exists_reach (hk : src.Wraps floor r (k + 1)) :
    ∃ o c, (src.codeUpTo r.start)[k]? = some o ∧ (src.codeFrom r.stop)[k]? = some c ∧
      src.reach r (k + 1) = ⟨o.range.start, c.range.stop⟩ := by
  have ho := List.getElem?_eq_getElem (Nat.lt_of_succ_le hk.opens_length)
  have hc := List.getElem?_eq_getElem (Nat.lt_of_succ_le hk.closes_length)
  exact ⟨_, _, ho, hc, by simp only [reach, ho, hc]⟩

namespace Ordered

variable (h : src.Ordered)

include h

/-- One more pair stands around a range when a round takes in the first one and the others stand
around what it gives. -/
lemma wraps_succ : src.Wraps floor r (k + 1) ↔
    ∃ r', src.unwrapOnce floor r = some r' ∧ src.Wraps floor r' k := by
  constructor
  · intro ⟨hopens, hcloses, hopening, hclosing⟩
    obtain ⟨o, os, hup⟩ := List.exists_cons_of_length_pos (Nat.zero_lt_of_lt hopens)
    obtain ⟨c, cs, hdown⟩ := List.exists_cons_of_length_pos (Nat.zero_lt_of_lt hcloses)
    rw [hup] at hopens hopening
    rw [hdown] at hcloses hclosing
    simp only [List.take_succ_cons, List.forall_mem_cons] at hopening hclosing
    refine ⟨⟨o.range.start, c.range.stop⟩, h.unwrapOnce_eq_some.2
      ⟨o, os, c, cs, hup, hdown, hopening.1, hclosing.1, rfl⟩, ?_⟩
    rw [wraps_iff, h.codeUpTo_start hup, h.codeFrom_stop hdown]
    exact ⟨⟨Nat.le_of_succ_le_succ hopens, Nat.le_of_succ_le_succ hcloses⟩,
      hopening.2, hclosing.2⟩
  · rintro ⟨r', hround, hk⟩
    obtain ⟨o, os, c, cs, hup, hdown, hopen, hclose, rfl⟩ := h.unwrapOnce_eq_some.1 hround
    rw [wraps_iff, h.codeUpTo_start hup, h.codeFrom_stop hdown] at hk
    obtain ⟨⟨hopens, hcloses⟩, hopening, hclosing⟩ := hk
    rw [wraps_iff, hup, hdown]
    simp only [List.length_cons, List.take_succ_cons, List.forall_mem_cons]
    exact ⟨⟨Nat.succ_le_succ hopens, Nat.succ_le_succ hcloses⟩, ⟨hopen, hopening⟩,
      hclose, hclosing⟩

/-- The other pairs reach as far from what the first round gives. -/
lemma reach_succ (hround : src.unwrapOnce floor r = some r') (hk : src.Wraps floor r' k) :
    src.reach r (k + 1) = src.reach r' k := by
  obtain ⟨o, os, c, cs, hup, hdown, -, -, rfl⟩ := h.unwrapOnce_eq_some.1 hround
  cases k with
  | zero => simp [reach, hup, hdown]
  | succ k =>
    obtain ⟨o', c', ho', hc', hreach⟩ := hk.exists_reach
    rw [h.codeUpTo_start hup] at ho'
    rw [h.codeFrom_stop hdown] at hc'
    rw [hreach]
    simp only [reach, hup, hdown, List.getElem?_cons_succ, ho', hc']

/-- The loop takes in as many pairs as there are. -/
lemma isGreatest_of_unwraps (hrun : src.Unwraps floor k r out) :
    IsGreatest {j | src.Wraps floor r j} k := by
  induction hrun with
  | stop hstop =>
    refine ⟨wraps_zero, fun j hj => ?_⟩
    cases j with
    | zero => exact Nat.le_refl 0
    | succ j =>
      obtain ⟨r', hround, -⟩ := h.wraps_succ.1 hj
      rw [hstop] at hround
      cases hround
  | round hround _ ih =>
    refine ⟨h.wraps_succ.2 ⟨_, hround, ih.1⟩, fun j hj => ?_⟩
    cases j with
    | zero => exact Nat.zero_le _
    | succ j =>
      obtain ⟨r'', hround', hj'⟩ := h.wraps_succ.1 hj
      obtain rfl := Option.some.inj (hround.symm.trans hround')
      exact Nat.succ_le_succ (ih.2 hj')

/-- The loop ends with the range of the pairs it takes in. -/
lemma eq_reach_of_unwraps (hrun : src.Unwraps floor k r out) : out = src.reach r k := by
  induction hrun with
  | stop => rfl
  | round hround hrest ih =>
    rw [ih, h.reach_succ hround (h.isGreatest_of_unwraps hrest).1]

/-! ### What a range takes in -/

/-- The range of some pairs contains the range they stand around. -/
lemma reach_contains (hk : src.Wraps floor r k) :
    (src.reach r k).start ≤ r.start ∧ r.stop ≤ (src.reach r k).stop := by
  cases k with
  | zero => exact ⟨Nat.le_refl _, Nat.le_refl _⟩
  | succ k =>
    obtain ⟨o, c, ho, hc, hreach⟩ := hk.exists_reach
    obtain ⟨hmemo, -, hstop⟩ := mem_codeUpTo.1 (List.mem_of_getElem? ho)
    obtain ⟨hmemc, -, hstart⟩ := mem_codeFrom.1 (List.mem_of_getElem? hc)
    have hopen := h.nonempty o hmemo
    have hclose := h.nonempty c hmemc
    rw [hreach]
    dsimp only
    omega

/-- Code before a range that reaches into the range of some pairs is one of their parentheses. -/
lemma mem_opens (hk : src.Wraps floor r k) (ht : t ∈ src.codeUpTo r.start)
    (hreach : (src.reach r k).start < t.range.stop) : t ∈ (src.codeUpTo r.start).take k := by
  cases k with
  | zero =>
    have hstop := (mem_codeUpTo.1 ht).2.2
    simp only [reach] at hreach
    omega
  | succ k =>
    obtain ⟨o, c, ho, -, heq⟩ := hk.exists_reach
    rw [heq] at hreach
    refine mem_take_of_not_rel (h.pairwise_codeUpTo _) ho ht fun hbefore => ?_
    have hle := hbefore.2.1
    dsimp only at hreach
    omega

/-- Code after a range that reaches into the range of some pairs is one of their parentheses. -/
lemma mem_closes (hk : src.Wraps floor r k) (ht : t ∈ src.codeFrom r.stop)
    (hreach : t.range.start < (src.reach r k).stop) : t ∈ (src.codeFrom r.stop).take k := by
  cases k with
  | zero =>
    have hstart := (mem_codeFrom.1 ht).2.2
    simp only [reach] at hreach
    omega
  | succ k =>
    obtain ⟨o, c, -, hc, heq⟩ := hk.exists_reach
    rw [heq] at hreach
    refine mem_take_of_not_rel (h.pairwise_codeFrom _) hc ht fun hafter => ?_
    have hle := hafter.2.1
    dsimp only at hreach
    omega

/-- A token of which the range of some pairs takes something in. -/
lemma taken_in (hk : src.Wraps floor r k) {i : Nat} (hi : (src.reach r k).Covers i)
    (hout : ¬r.Covers i) (ht : t ∈ src.tokens.toList) (hti : t.range.Covers i) :
    t ∈ (src.codeUpTo r.start).take k ∨ t ∈ (src.codeFrom r.stop).take k ∨
      t.isComment = true ∨ t.CutBy r := by
  obtain ⟨hstart, hstop⟩ := hi
  obtain ⟨htstart, htstop⟩ := hti
  cases hcode : t.isComment with
  | true => exact .inr (.inr (.inl rfl))
  | false =>
    by_cases hcut : t.CutBy r
    · exact .inr (.inr (.inr hcut))
    · unfold Token.CutBy at hcut
      by_cases hlt : i < r.start
      · refine .inl (h.mem_opens hk (mem_codeUpTo.2 ⟨ht, hcode, ?_⟩) ?_) <;> omega
      · have hle : r.stop ≤ i := by
          unfold Range.Covers at hout
          omega
        refine .inr (.inl (h.mem_closes hk (mem_codeFrom.2 ⟨ht, hcode, ?_⟩) ?_)) <;> omega

end Ordered

/-- Parentheses around a range make it wider. -/
lemma unwrap_widens (h : src.Ordered) (floor : Nat) (r : Range) :
    (src.unwrap floor r).start ≤ r.start ∧ r.stop ≤ (src.unwrap floor r).stop := by
  obtain ⟨k, hrun⟩ := h.unwraps_unwrap floor r
  rw [h.eq_reach_of_unwraps hrun]
  exact h.reach_contains (h.isGreatest_of_unwraps hrun).1

/-- **A range is widened over exactly the parentheses that wrap it.**  On tokens in order the loop
comes to an end, whatever the range and the floor.  The number of its rounds is the greatest `k` for
which the `k` nearest tokens before the range are opening parentheses after the floor and the `k`
nearest after it closing ones, and the range it gives goes from the start of the `k`-th on the left
to the end of the `k`-th on the right.  So it contains the range.  What it adds are these
parentheses, comments, what no token covers, and the rest of a token that an end of the range cuts;
and a second time it changes nothing. -/
theorem Ordered.unwrap_greatest {src : Source} (h : src.Ordered) (floor : Nat) (r : Range) :
    ∃ k, src.Unwraps floor k r (src.unwrap floor r) ∧
      IsGreatest {j | src.Wraps floor r j} k ∧
      src.unwrap floor r = src.reach r k ∧
      (src.unwrap floor r).start ≤ r.start ∧ r.stop ≤ (src.unwrap floor r).stop ∧
      (∀ i, (src.unwrap floor r).Covers i → ¬r.Covers i →
        ∀ t ∈ src.tokens.toList, t.range.Covers i →
          t ∈ (src.codeUpTo r.start).take k ∨ t ∈ (src.codeFrom r.stop).take k ∨
            t.isComment = true ∨ t.CutBy r) ∧
      src.unwrap floor (src.unwrap floor r) = src.unwrap floor r := by
  obtain ⟨k, hrun⟩ := h.unwraps_unwrap floor r
  have hgreatest := h.isGreatest_of_unwraps hrun
  have hreach := h.eq_reach_of_unwraps hrun
  obtain ⟨hstart, hstop⟩ := unwrap_widens h floor r
  refine ⟨k, hrun, hgreatest, hreach, hstart, hstop, fun i hi hout t ht hti => ?_, ?_⟩
  · rw [hreach] at hi
    exact h.taken_in hgreatest.1 hi hout ht hti
  · obtain ⟨_, hagain⟩ := h.unwraps_unwrap floor (src.unwrap floor r)
    exact hagain.eq_of_eq_none hrun.unwrapOnce_eq_none

end Source

/-- The text `dict((# a⏎(2)))`. -/
def Sample.bundled : Text :=
  ['d', 'i', 'c', 't', '(', '(', '#', ' ', 'a', '\n', '(', '2', ')', ')', ')']

/-- The argument of `dict((# a⏎(2)))` is unwrapped in two rounds, over a comment.  The parentheses
of the call are left out, as they do not start after the floor. -/
theorem unwrap_greatest_bundled :
    ∃ src, Source.ofText Sample.bundled = .ok src ∧ src.Ordered ∧
      IsGreatest {j | src.Wraps 4 ⟨11, 12⟩ j} 2 ∧
      src.Unwraps 4 2 ⟨11, 12⟩ ⟨5, 14⟩ ∧ src.unwrap 4 ⟨11, 12⟩ = ⟨5, 14⟩ ∧
      (∀ i, Range.Covers ⟨5, 14⟩ i → ¬Range.Covers ⟨11, 12⟩ i →
        ∀ t ∈ src.tokens.toList, t.range.Covers i →
          t.is "(" = true ∨ t.is ")" = true ∨ t.isComment = true) ∧
      src.unwrap 4 ⟨5, 14⟩ = ⟨5, 14⟩ := by
  have hsource : (Source.ofText Sample.bundled).toOption.map (fun src => src.tokens.toList) =
      some [.make .name ['d', 'i', 'c', 't'] 0 1 1, .make .operator ['('] 4 1 1,
        .make .operator ['('] 5 1 1, .make .comment ['#', ' ', 'a'] 6 1 1,
        .make .operator ['('] 10 2 2, .make .number ['2'] 11 2 2, .make .operator [')'] 12 2 2,
        .make .operator [')'] 13 2 2, .make .operator [')'] 14 2 2] := by
    decide +kernel
  obtain ⟨src, hsrc, htokens⟩ := Outcome.exists_of_toOption_map hsource
  have hordered := Source.ordered_of_read (Source.read_of_ofText hsrc)
  have hup : src.codeUpTo 11 = [.make .operator ['('] 10 2 2, .make .operator ['('] 5 1 1,
      .make .operator ['('] 4 1 1, .make .name ['d', 'i', 'c', 't'] 0 1 1] := by
    rw [Source.codeUpTo, htokens]
    decide
  have hdown : src.codeFrom 12 = [.make .operator [')'] 12 2 2, .make .operator [')'] 13 2 2,
      .make .operator [')'] 14 2 2] := by
    rw [Source.codeFrom, htokens]
    decide
  have huncut : ∀ t ∈ src.tokens.toList, ¬t.CutBy ⟨11, 12⟩ := by
    rw [htokens]
    decide
  obtain ⟨k, hrun, hgreatest, hreach, -, -, hadded, hagain⟩ :=
    hordered.unwrap_greatest 4 ⟨11, 12⟩
  -- two pairs stand around the argument, and the third opening parenthesis is the floor
  have htwo : src.Wraps 4 ⟨11, 12⟩ 2 := by
    rw [Source.wraps_iff, hup, hdown]
    decide
  have hthree : ¬src.Wraps 4 ⟨11, 12⟩ 3 := by
    rw [Source.wraps_iff, hup, hdown]
    decide
  obtain rfl : k = 2 := by
    have hge := hgreatest.2 htwo
    have hle : k ≤ 3 := by simpa [hdown] using hgreatest.1.closes_length
    have hne : k ≠ 3 := fun hk => hthree (hk ▸ hgreatest.1)
    omega
  have hrange : src.reach ⟨11, 12⟩ 2 = ⟨5, 14⟩ := by
    simp [Source.reach, hup, hdown, Token.make]
  rw [hrange] at hreach
  rw [hreach] at hrun hadded hagain
  refine ⟨src, hsrc, hordered, hgreatest, hrun, hreach, fun i hi hout t ht hti => ?_, hagain⟩
  rcases hadded i hi hout t ht hti with hopen | hclose | hcomment | hcut
  · exact .inl (htwo.opening t hopen).1
  · exact .inr (.inl (htwo.closing t hclose))
  · exact .inr (.inr hcomment)
  · exact absurd hcut (huncut t ht)

/-- Two lines for a syntax tree and one for the index before `a((bcd))`: `#` and `{1: x}`, with a
lone `\r` after the first and `\n` after the others. -/
def Sample.torn : Text :=
  ['#', '\r', '\x7b', '1', ':', ' ', 'x', '\x7d', '\n', 'a', '(', '(', 'b', 'c', 'd', ')', ')',
    '\n']

/-- After a lone `\r` the value of the display is looked for in the next line, where its range cuts
the name `bcd`.  Unwrapped it takes in the rest of that name, which is no parenthesis, no comment
and no layout. -/
theorem unwrap_takes_rest_of_name :
    ∃ src, Source.ofText Sample.torn = .ok src ∧ src.Ordered ∧
      src.unwrap 9 ⟨13, 14⟩ = ⟨10, 17⟩ ∧
      (∃ c e, .entry c e ∈ src.walk.events ∧ e.range = ⟨10, 17⟩) ∧
      Range.Covers ⟨10, 17⟩ 12 ∧ ¬Range.Covers ⟨13, 14⟩ 12 ∧
      ∃ t ∈ src.tokens.toList, t.range.Covers 12 ∧ t.kind = .name ∧ t.value = ['b', 'c', 'd'] := by
  have hsource : (Source.ofText Sample.torn).toOption.map (fun src =>
      src.unwrap 9 ⟨13, 14⟩ == ⟨10, 17⟩ &&
        (src.walk.events.any fun
          | .entry _ e => e.range == ⟨10, 17⟩
          | _ => false) &&
        src.tokens.toList.any fun t =>
          decide (t.range.Covers 12) && t.kind == .name && t.value == ['b', 'c', 'd']) =
      some true := by
    decide +kernel
  obtain ⟨src, hsrc, hfacts⟩ := Outcome.exists_of_toOption_map hsource
  simp only [Bool.and_eq_true, beq_iff_eq, List.any_eq_true, decide_eq_true_eq] at hfacts
  obtain ⟨⟨hunwrap, f, hf, hentry⟩, t, ht, ⟨hcovers, hkind⟩, hvalue⟩ := hfacts
  refine ⟨src, hsrc, Source.ordered_of_read (Source.read_of_ofText hsrc), hunwrap, ?_, by decide, by decide, t, ht,
    hcovers, hkind, hvalue⟩
  cases f with
  | entry c e => exact ⟨c, e, hf, beq_iff_eq.1 hentry⟩
  | _ => cases hentry

end KeyOrder
