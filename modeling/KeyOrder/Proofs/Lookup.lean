import KeyOrder.Proofs.Sorting
import KeyOrder.Source
import Mathlib.Data.List.TakeWhile
import Mathlib.Tactic.Lemma

/-!
# Looking up tokens

Every lookup goes through a bisection.  On a list along which the condition is monotone the
bisection splits the list into the elements on which the condition fails and those on which it
holds, so that each lookup has a reading without indices: the last token that ends by an offset,
the first one that starts from it on, the run of comments next to it.
-/

namespace KeyOrder

/-! ### Bisection -/

lemma bisect_le (p : Nat → Bool) {lo hi : Nat} (h : lo ≤ hi) : bisect p lo hi ≤ hi := by
  fun_induction bisect p lo hi with
  | case1 lo hi _ mid _ ih => exact (ih (by omega)).trans (by omega)
  | case2 lo hi _ mid _ ih => exact ih (by omega)
  | case3 lo hi _ => exact h

/-- A bisection ends where a monotone condition starts to hold. -/
lemma bisect_spec {p : Nat → Bool} (hp : ∀ i j, i ≤ j → p i = true → p j = true) (lo hi : Nat) :
    (∀ i, lo ≤ i → i < bisect p lo hi → p i = false) ∧
      ∀ i, bisect p lo hi ≤ i → i < hi → p i = true := by
  fun_induction bisect p lo hi with
  | case1 lo hi _ mid hmid ih =>
    refine ⟨ih.1, fun i hi' _ => ?_⟩
    by_cases hlt : i < mid
    · exact ih.2 i hi' hlt
    · exact hp mid i (by omega) hmid
  | case2 lo hi _ mid hmid ih =>
    refine ⟨fun i _ hlt => ?_, ih.2⟩
    by_cases hle : i ≤ mid
    · cases hi' : p i with
      | false => rfl
      | true => exact absurd (hp i mid hle hi') hmid
    · exact ih.1 i (by omega) hlt
  | case3 lo hi _ => exact ⟨fun i _ _ => by omega, fun i _ _ => by omega⟩

section Array

variable {α : Type} {p : α → Bool} {xs : Array α}

/-- The condition of a bisection, along an array on which it is monotone. -/
lemma all_getElem?_mono (h : xs.toList.Pairwise fun a b => p a = true → p b = true) (i j : Nat)
    (hij : i ≤ j) (hi : (xs[i]?).all p = true) : (xs[j]?).all p = true := by
  rcases Nat.eq_or_lt_of_le hij with rfl | hlt
  · exact hi
  · by_cases hj : j < xs.size
    · have hrel := List.pairwise_iff_getElem.1 h i j (by simp; omega) (by simpa using hj) hlt
      rw [Array.getElem?_eq_getElem (by omega)] at hi
      rw [Array.getElem?_eq_getElem hj]
      simpa using hrel (by simpa using hi)
    · rw [Array.getElem?_eq_none (by omega)]
      rfl

lemma bisectArray_split (h : xs.toList.Pairwise fun a b => p a = true → p b = true) :
    xs.toList.take (bisectArray p xs) = xs.toList.filter (fun a => !p a) ∧
      xs.toList.drop (bisectArray p xs) = xs.toList.filter p := by
  obtain ⟨hfail, hhold⟩ := bisect_spec (all_getElem?_mono h) 0 xs.size
  have htake : ∀ a ∈ xs.toList.take (bisectArray p xs), p a = false := by
    intro a ha
    obtain ⟨i, hi, rfl⟩ := List.mem_take_iff_getElem.1 ha
    have := hfail i (Nat.zero_le i) (by unfold bisectArray at hi; omega)
    rw [Array.getElem?_eq_getElem (by simp at hi; omega)] at this
    simpa using this
  have hdrop : ∀ a ∈ xs.toList.drop (bisectArray p xs), p a = true := by
    intro a ha
    obtain ⟨i, hi, rfl⟩ := List.mem_drop_iff_getElem.1 ha
    have hsize : i + bisectArray p xs < xs.size := by simpa using hi
    have := hhold (i + bisectArray p xs) (Nat.le_add_left ..) hsize
    rw [Array.getElem?_eq_getElem hsize] at this
    simpa [Nat.add_comm] using this
  have hsplit := List.take_append_drop (bisectArray p xs) xs.toList
  have hfilter := congrArg (List.filter fun a => !p a) hsplit
  have hfilter' := congrArg (List.filter p) hsplit
  rw [List.filter_append, List.filter_eq_self.2 (by simpa using htake),
    List.filter_eq_nil_iff.2 (by simpa using hdrop), List.append_nil] at hfilter
  rw [List.filter_append, List.filter_eq_nil_iff.2 (by simpa using htake),
    List.filter_eq_self.2 hdrop, List.nil_append] at hfilter'
  exact ⟨hfilter, hfilter'⟩

lemma bisectArray_le (p : α → Bool) (xs : Array α) : bisectArray p xs ≤ xs.size :=
  bisect_le _ (Nat.zero_le _)

end Array

/-! ### Tokens in order -/

/-- A token before another one, neither of them empty. -/
def Token.Before (a b : Token) : Prop :=
  a.range.start < a.range.stop ∧ a.range.stop ≤ b.range.start ∧ b.range.start < b.range.stop

lemma Token.Before.asymm {a b : Token} (h : a.Before b) : ¬b.Before a := by
  unfold Before at *
  omega

/-- The tokens of a source are not empty, follow one another and do not overlap. -/
structure Source.Ordered (src : Source) : Prop where
  nonempty : ∀ t ∈ src.tokens.toList, t.range.start < t.range.stop
  disjoint : src.tokens.toList.Pairwise fun a b => a.range.stop ≤ b.range.start

section Lists

variable {ts : List Token}

/-- A token of a list in order is one that ends last exactly when it is the last one. -/
lemma getLast?_eq_some_iff (h : ts.Pairwise Token.Before) {t : Token} :
    ts.getLast? = some t ↔ t ∈ ts ∧ ∀ u ∈ ts, u = t ∨ u.Before t := by
  constructor
  · intro hlast
    obtain ⟨init, rfl⟩ := List.getLast?_eq_some_iff.1 hlast
    refine ⟨by simp, fun u hu => ?_⟩
    rcases List.mem_append.1 hu with hu | hu
    · exact .inr ((List.pairwise_append.1 h).2.2 u hu t (by simp))
    · exact .inl (by simpa using hu)
  · rintro ⟨ht, hall⟩
    obtain ⟨init, hinit⟩ := List.append_of_mem ht
    obtain ⟨rest, rfl⟩ := hinit
    cases rest with
    | nil => simp
    | cons u rest =>
      have hbefore := (List.pairwise_cons.1 (List.pairwise_append.1 h).2.1).1 u (by simp)
      rcases hall u (by simp) with rfl | hu
      · exact absurd hbefore hbefore.asymm
      · exact absurd hbefore hu.asymm

/-- A token of a list in order is the first one exactly when all others come after it. -/
lemma head?_eq_some_iff (h : ts.Pairwise Token.Before) {t : Token} :
    ts.head? = some t ↔ t ∈ ts ∧ ∀ u ∈ ts, u = t ∨ t.Before u := by
  constructor
  · intro hhead
    obtain ⟨rest, rfl⟩ := List.head?_eq_some_iff.1 hhead
    refine ⟨by simp, fun u hu => ?_⟩
    rcases List.mem_cons.1 hu with rfl | hu
    · exact .inl rfl
    · exact .inr ((List.pairwise_cons.1 h).1 u hu)
  · rintro ⟨ht, hall⟩
    cases ts with
    | nil => exact absurd ht List.not_mem_nil
    | cons u rest =>
      rcases List.mem_cons.1 ht with rfl | ht
      · rfl
      · have hbefore := (List.pairwise_cons.1 h).1 t ht
        rcases hall u (by simp) with rfl | hu
        · rfl
        · exact absurd hbefore hu.asymm

/-- The run at the start of a list consists of the elements that come before all those at which
it could end. -/
lemma mem_takeWhile_iff {R : Token → Token → Prop} (hR : ∀ a b, R a b → ¬R b a)
    (h : ts.Pairwise R) {p : Token → Bool} {t : Token} :
    t ∈ ts.takeWhile p ↔ t ∈ ts ∧ p t = true ∧ ∀ u ∈ ts, p u = false → R t u := by
  induction ts with
  | nil => simp
  | cons a ts ih =>
    obtain ⟨ha, hts⟩ := List.pairwise_cons.1 h
    cases hpa : p a with
    | false =>
      rw [List.takeWhile_cons_of_neg (by simp [hpa])]
      refine ⟨fun ht => absurd ht List.not_mem_nil, fun ⟨ht, hpt, hall⟩ => ?_⟩
      have hta := hall a (by simp) hpa
      rcases List.mem_cons.1 ht with rfl | ht
      · rw [hpa] at hpt
        cases hpt
      · exact absurd hta (hR a t (ha t ht))
    | true =>
      rw [List.takeWhile_cons_of_pos hpa, List.mem_cons, ih hts]
      constructor
      · rintro (rfl | ⟨ht, hpt, hall⟩)
        · refine ⟨by simp, hpa, fun u hu hpu => ?_⟩
          rcases List.mem_cons.1 hu with rfl | hu
          · rw [hpa] at hpu
            cases hpu
          · exact ha u hu
        · refine ⟨List.mem_cons_of_mem _ ht, hpt, fun u hu hpu => ?_⟩
          rcases List.mem_cons.1 hu with rfl | hu
          · rw [hpa] at hpu
            cases hpu
          · exact hall u hu hpu
      · rintro ⟨ht, hpt, hall⟩
        rcases List.mem_cons.1 ht with rfl | ht
        · exact .inl rfl
        · exact .inr ⟨ht, hpt, fun u hu hpu => hall u (List.mem_cons_of_mem _ hu) hpu⟩

end Lists

/-! ### Lookups by index -/

namespace Source

/-- Whether a token counts in a lookup. -/
abbrev counts (comments : Bool) (t : Token) : Bool := comments || !t.isComment

lemma take_succ_tokens {src : Source} {n : Nat} (hn : n < src.tokens.size) :
    src.tokens.toList.take (n + 1) = src.tokens.toList.take n ++ [src.tokens[n]] := by
  rw [List.take_succ_eq_append_getElem (by simpa using hn), Array.getElem_toList]

lemma drop_tokens {src : Source} {n : Nat} (hn : n < src.tokens.size) :
    src.tokens.toList.drop n = src.tokens[n] :: src.tokens.toList.drop (n + 1) := by
  rw [List.drop_eq_getElem_cons (by simpa using hn), Array.getElem_toList]

lemma lastOf_eq_getLast? (src : Source) (comments : Bool) {n : Nat} (hn : n ≤ src.tokens.size) :
    src.lastOf comments n =
      ((src.tokens.toList.take n).filter (counts comments)).getLast? := by
  induction n with
  | zero => rfl
  | succ n ih =>
    rw [lastOf, take_succ_tokens (by omega), List.filter_append,
      Array.getElem?_eq_getElem (by omega)]
    by_cases ht : counts comments src.tokens[n] = true
    · simp [ht]
    · simp [ht, ih (by omega)]

lemma firstFrom_eq_head? (src : Source) (comments : Bool) (i : Nat) :
    src.firstFrom comments i = ((src.tokens.toList.drop i).filter (counts comments)).head? := by
  fun_induction firstFrom src comments i with
  | case1 i h t ht =>
    have hcounts : counts comments t = true := ht
    rw [drop_tokens h, List.filter_cons_of_pos hcounts, List.head?_cons]
  | case2 i h t ht ih =>
    have hcounts : ¬counts comments t = true := ht
    rw [drop_tokens h, List.filter_cons_of_neg hcounts, ih]
  | case3 i h => rw [List.drop_eq_nil_of_le (by simpa using h)]; rfl

lemma commentsDown_eq_takeWhile (src : Source) {n : Nat} (hn : n ≤ src.tokens.size) :
    src.commentsDown n = (src.tokens.toList.take n).reverse.takeWhile Token.isComment := by
  induction n with
  | zero => rfl
  | succ n ih =>
    rw [commentsDown, take_succ_tokens (by omega), List.reverse_append,
      Array.getElem?_eq_getElem (by omega)]
    cases ht : src.tokens[n].isComment <;> simp [ht, ih (by omega)]

lemma commentsUp_eq_takeWhile (src : Source) (i : Nat) :
    src.commentsUp i = (src.tokens.toList.drop i).takeWhile Token.isComment := by
  fun_induction commentsUp src i with
  | case1 i h t ht ih => rw [drop_tokens h, List.takeWhile_cons_of_pos ht, ih]
  | case2 i h t ht => rw [drop_tokens h, List.takeWhile_cons_of_neg ht]
  | case3 i h => rw [List.drop_eq_nil_of_le (by simpa using h)]; rfl

lemma inString_iff_getLast? (src : Source) (offset : Nat) :
    src.inString offset = true ↔
      ∃ t, (src.tokens.toList.take (src.startedBy offset)).getLast? = some t ∧
        t.kind = .string ∧ t.range.start < offset ∧ offset < t.range.stop := by
  have hle : src.startedBy offset ≤ src.tokens.size := bisectArray_le _ _
  unfold inString
  split
  · rename_i hn
    simp [hn]
  · rename_i n hn
    have hlt : n < src.tokens.size := by omega
    rw [hn, take_succ_tokens hlt, List.getLast?_concat, Array.getElem?_eq_getElem hlt]
    simp [and_assoc]

/-! ### Lookups by order -/

lemma endedBy_le (src : Source) (offset : Nat) : src.endedBy offset ≤ src.tokens.size :=
  bisectArray_le _ _

namespace Ordered

variable {src : Source} (h : src.Ordered)

include h

lemma pairwise : src.tokens.toList.Pairwise Token.Before := by
  refine h.disjoint.imp_of_mem ?_
  intro a b ha hb hab
  exact ⟨h.nonempty _ ha, hab, h.nonempty _ hb⟩

lemma take_endedBy (offset : Nat) :
    src.tokens.toList.take (src.endedBy offset) =
      src.tokens.toList.filter fun t => decide (t.range.stop ≤ offset) := by
  refine (bisectArray_split (h.pairwise.imp fun hab => ?_)).1.trans (List.filter_congr ?_)
  · obtain ⟨-, h1, h2⟩ := hab
    simp only [decide_eq_true_eq]
    omega
  · intro t _
    rw [← decide_not, decide_eq_decide, Nat.not_lt]

lemma drop_startedBefore (offset : Nat) :
    src.tokens.toList.drop (src.startedBefore offset) =
      src.tokens.toList.filter fun t => decide (offset ≤ t.range.start) := by
  refine (bisectArray_split (h.pairwise.imp fun hab => ?_)).2
  obtain ⟨h1, h2, -⟩ := hab
  simp only [decide_eq_true_eq]
  omega

lemma take_startedBy (offset : Nat) :
    src.tokens.toList.take (src.startedBy offset) =
      src.tokens.toList.filter fun t => decide (t.range.start ≤ offset) := by
  refine (bisectArray_split (h.pairwise.imp fun hab => ?_)).1.trans (List.filter_congr ?_)
  · obtain ⟨h1, h2, -⟩ := hab
    simp only [decide_eq_true_eq]
    omega
  · intro t _
    rw [← decide_not, decide_eq_decide, Nat.not_lt]

/-- The token before an offset is the last one that ends by it. -/
lemma tokenBefore_eq_some {comments : Bool} {offset : Nat} {t : Token} :
    src.tokenBefore comments offset = some t ↔
      t ∈ src.tokens.toList ∧ counts comments t = true ∧ t.range.stop ≤ offset ∧
        ∀ u ∈ src.tokens.toList, counts comments u = true → u.range.stop ≤ offset →
          u = t ∨ u.Before t := by
  rw [tokenBefore, lastOf_eq_getLast? _ _ (src.endedBy_le _), h.take_endedBy,
    getLast?_eq_some_iff ((h.pairwise.filter _).filter _)]
  simp only [List.mem_filter, decide_eq_true_eq, and_imp]
  constructor
  · rintro ⟨⟨⟨ht, hstop⟩, hcounts⟩, hall⟩
    exact ⟨ht, hcounts, hstop, fun u hu hcu hsu => hall u hu hsu hcu⟩
  · rintro ⟨ht, hcounts, hstop, hall⟩
    exact ⟨⟨⟨ht, hstop⟩, hcounts⟩, fun u hu hsu hcu => hall u hu hcu hsu⟩

lemma exists_tokenBefore {comments : Bool} {offset : Nat} {t : Token}
    (ht : t ∈ src.tokens.toList) (hcounts : counts comments t = true)
    (hstop : t.range.stop ≤ offset) : ∃ u, src.tokenBefore comments offset = some u := by
  rw [tokenBefore, lastOf_eq_getLast? _ _ (src.endedBy_le _), h.take_endedBy]
  refine Option.isSome_iff_exists.1 (List.getLast?_isSome.2 (List.ne_nil_of_mem (a := t) ?_))
  exact List.mem_filter.2 ⟨List.mem_filter.2 ⟨ht, decide_eq_true hstop⟩, hcounts⟩

/-- The token after an offset is the first one that starts from it on. -/
lemma tokenAfter_eq_some {comments : Bool} {offset : Nat} {t : Token} :
    src.tokenAfter comments offset = some t ↔
      t ∈ src.tokens.toList ∧ counts comments t = true ∧ offset ≤ t.range.start ∧
        ∀ u ∈ src.tokens.toList, counts comments u = true → offset ≤ u.range.start →
          u = t ∨ t.Before u := by
  rw [tokenAfter, firstFrom_eq_head?, h.drop_startedBefore,
    head?_eq_some_iff ((h.pairwise.filter _).filter _)]
  simp only [List.mem_filter, decide_eq_true_eq, and_imp]
  constructor
  · rintro ⟨⟨⟨ht, hstart⟩, hcounts⟩, hall⟩
    exact ⟨ht, hcounts, hstart, fun u hu hcu hsu => hall u hu hsu hcu⟩
  · rintro ⟨ht, hcounts, hstart, hall⟩
    exact ⟨⟨⟨ht, hstart⟩, hcounts⟩, fun u hu hsu hcu => hall u hu hcu hsu⟩

/-- The comments before an offset are those that follow all code that ends by it. -/
lemma mem_commentsBefore {offset : Nat} {c : Token} :
    c ∈ src.commentsBefore offset ↔
      c ∈ src.tokens.toList ∧ c.isComment = true ∧ c.range.stop ≤ offset ∧
        ∀ u ∈ src.tokens.toList, u.isComment = false → u.range.stop ≤ offset → u.Before c := by
  rw [Source.commentsBefore, List.mem_reverse,
    commentsDown_eq_takeWhile _ (src.endedBy_le _), h.take_endedBy,
    mem_takeWhile_iff (fun a b => Token.Before.asymm)
      (List.pairwise_reverse.2 (h.pairwise.filter _))]
  simp only [List.mem_reverse, List.mem_filter, decide_eq_true_eq, and_imp]
  constructor
  · rintro ⟨⟨hc, hstop⟩, hcomment, hall⟩
    exact ⟨hc, hcomment, hstop, fun u hu hcode hsu => hall u hu hsu hcode⟩
  · rintro ⟨hc, hcomment, hstop, hall⟩
    exact ⟨⟨hc, hstop⟩, hcomment, fun u hu hsu hcode => hall u hu hcode hsu⟩

/-- The comments after an offset are those that precede all code that starts from it on. -/
lemma mem_commentsAfter {offset : Nat} {c : Token} :
    c ∈ src.commentsAfter offset ↔
      c ∈ src.tokens.toList ∧ c.isComment = true ∧ offset ≤ c.range.start ∧
        ∀ u ∈ src.tokens.toList, u.isComment = false → offset ≤ u.range.start → c.Before u := by
  rw [Source.commentsAfter, commentsUp_eq_takeWhile, h.drop_startedBefore,
    mem_takeWhile_iff (fun a b => Token.Before.asymm) (h.pairwise.filter _)]
  simp only [List.mem_filter, decide_eq_true_eq, and_imp]
  constructor
  · rintro ⟨⟨hc, hstart⟩, hcomment, hall⟩
    exact ⟨hc, hcomment, hstart, fun u hu hcode hsu => hall u hu hsu hcode⟩
  · rintro ⟨hc, hcomment, hstart, hall⟩
    exact ⟨⟨hc, hstart⟩, hcomment, fun u hu hsu hcode => hall u hu hcode hsu⟩

/-- An offset falls inside a string when some string starts before it and ends after it. -/
lemma inString_iff (offset : Nat) :
    src.inString offset = true ↔ ∃ t ∈ src.tokens.toList,
      t.kind = .string ∧ t.range.start < offset ∧ offset < t.range.stop := by
  have hpairwise := h.pairwise.filter fun t => decide (t.range.start ≤ offset)
  rw [inString_iff_getLast?, h.take_startedBy]
  constructor
  · rintro ⟨t, hlast, ht⟩
    have hmem := ((getLast?_eq_some_iff hpairwise).1 hlast).1
    exact ⟨t, (List.mem_filter.1 hmem).1, ht⟩
  · rintro ⟨t, ht, hkind, hstart, hstop⟩
    refine ⟨t, (getLast?_eq_some_iff hpairwise).2 ⟨?_, fun u hu => ?_⟩, hkind, hstart, hstop⟩
    · exact List.mem_filter.2 ⟨ht, decide_eq_true hstart.le⟩
    · obtain ⟨hu, hle⟩ := List.mem_filter.1 hu
      rcases eq_or_rel_of_mem h.pairwise hu ht with rfl | hut | htu
      · exact .inl rfl
      · exact .inr hut
      · -- a token that comes after this one starts after the offset
        have hafter := htu.2.1
        have hbefore := of_decide_eq_true hle
        omega

lemma pairwise_commentsBefore (offset : Nat) :
    (src.commentsBefore offset).Pairwise Token.Before := by
  rw [Source.commentsBefore, commentsDown_eq_takeWhile _ (src.endedBy_le _),
    List.pairwise_reverse]
  refine List.Pairwise.sublist (List.takeWhile_sublist _) (List.pairwise_reverse.2 ?_)
  exact h.pairwise.sublist (List.take_sublist _ _)

lemma pairwise_commentsAfter (offset : Nat) :
    (src.commentsAfter offset).Pairwise Token.Before := by
  rw [Source.commentsAfter, commentsUp_eq_takeWhile]
  exact (h.pairwise.sublist (List.drop_sublist _ _)).sublist (List.takeWhile_sublist _)

end Ordered

end Source

end KeyOrder
