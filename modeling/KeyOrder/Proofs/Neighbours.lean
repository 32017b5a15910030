import KeyOrder.Proofs.Scanning

/-!
# The tokens next to an offset

A lookup bisects the tokens and then passes over comments.  Read without indices it goes through the
tokens once: the token before an offset is the last one that ends by it, the token after an offset
the first one that starts from it on, and the comments on either side are the longest run of
comments there.  For a range it is the start that counts before it and the end that counts after it.

* `Source.CommentsUpTo` and `Source.CommentsFrom` say what the longest run of comments is;
* `Source.Ordered.lookups_linear` is the reading of all lookups, and what it says of two neighbours.
-/

namespace KeyOrder

/-! ### Runs at the ends of a list -/

section Lists

variable {α : Type} {p : α → Bool} {xs post : List α}

/-- The run at the start of a list ends where its first other element stands. -/
lemma takeWhile_append_of_head (hxs : ∀ x ∈ xs, p x = true)
    (hpost : ∀ x, post.head? = some x → p x = false) : (xs ++ post).takeWhile p = xs := by
  rw [List.takeWhile_append_of_pos hxs]
  cases post with
  | nil => simp
  | cons x post => simp [hpost x rfl]

/-- The first element after the run at the start of a list is no part of the run. -/
lemma head?_dropWhile_fails {l : List α} {x : α} (h : (l.dropWhile p).head? = some x) :
    p x = false := by
  simpa [h] using List.head?_dropWhile_not p l

end Lists

namespace Source

/-- The comments next to an offset on its left: a stretch of tokens that ends with the last token
that ends by the offset, made of comments, and with no comment before it. -/
def CommentsUpTo (src : Source) (offset : Nat) (cs : List Token) : Prop :=
  ∃ pre post, src.tokens.toList = pre ++ cs ++ post ∧
    (∀ t ∈ pre ++ cs, t.range.stop ≤ offset) ∧ (∀ t ∈ post, offset < t.range.stop) ∧
    (∀ c ∈ cs, c.isComment = true) ∧ ∀ t, pre.getLast? = some t → t.isComment = false

/-- The comments next to an offset on its right: a stretch of tokens that starts with the first
token that starts from the offset on, made of comments, and with no comment after it. -/
def CommentsFrom (src : Source) (offset : Nat) (cs : List Token) : Prop :=
  ∃ pre post, src.tokens.toList = pre ++ (cs ++ post) ∧
    (∀ t ∈ pre, t.range.start < offset) ∧ (∀ t ∈ cs ++ post, offset ≤ t.range.start) ∧
    (∀ c ∈ cs, c.isComment = true) ∧ ∀ t, post.head? = some t → t.isComment = false

/-- Two tokens, neither of them a comment, with only comments between them. -/
structure Neighbours (src : Source) (pre cs post : List Token) (t u : Token) : Prop where
  tokens : src.tokens.toList = pre ++ t :: (cs ++ u :: post)
  left : t.isComment = false
  right : u.isComment = false
  between : ∀ c ∈ cs, c.isComment = true

namespace Ordered

variable {src : Source} (h : src.Ordered) {comments : Bool} {offset : Nat} {cs : List Token}

include h

/-- The token before an offset is the last of those that end by it. -/
lemma tokenBefore_eq_getLast? (comments : Bool) (offset : Nat) :
    src.tokenBefore comments offset =
      (src.tokens.toList.filter fun t =>
        counts comments t && decide (t.range.stop ≤ offset)).getLast? := by
  rw [tokenBefore, lastOf_eq_getLast? _ _ (src.endedBy_le _), h.take_endedBy, List.filter_filter]

/-- The token after an offset is the first of those that start from it on. -/
lemma tokenAfter_eq_find? (comments : Bool) (offset : Nat) :
    src.tokenAfter comments offset =
      src.tokens.toList.find? fun t =>
        counts comments t && decide (offset ≤ t.range.start) := by
  rw [tokenAfter, firstFrom_eq_head?, h.drop_startedBefore, List.filter_filter, List.head?_filter]

lemma commentsBefore_eq_iff : src.commentsBefore offset = cs ↔ src.CommentsUpTo offset cs := by
  have hended := h.take_endedBy offset
  have hsplit := List.take_append_drop (src.endedBy offset) src.tokens.toList
  rw [Source.commentsBefore, commentsDown_eq_takeWhile _ (src.endedBy_le _)]
  constructor
  · rintro rfl
    refine ⟨((src.tokens.toList.take (src.endedBy offset)).reverse.dropWhile
      Token.isComment).reverse, src.tokens.toList.drop (src.endedBy offset), ?_, ?_, ?_, ?_, ?_⟩
    · rw [← List.reverse_append, List.takeWhile_append_dropWhile, List.reverse_reverse, hsplit]
    · intro t ht
      rw [← List.reverse_append, List.takeWhile_append_dropWhile, List.reverse_reverse,
        hended] at ht
      exact of_decide_eq_true (List.mem_filter.1 ht).2
    · intro t ht
      by_contra hle
      -- a token that ends by the offset is among those before the cut, and no token comes twice
      have hmem : t ∈ src.tokens.toList.take (src.endedBy offset) := by
        rw [hended]
        exact List.mem_filter.2 ⟨List.mem_of_mem_drop ht, decide_eq_true (by omega)⟩
      have hpairwise := h.pairwise
      rw [← hsplit] at hpairwise
      have hbefore := (List.pairwise_append.1 hpairwise).2.2 t hmem t ht
      exact hbefore.asymm hbefore
    · intro c hc
      exact List.mem_takeWhile_imp (List.mem_reverse.1 hc)
    · intro t ht
      rw [List.getLast?_reverse] at ht
      exact head?_dropWhile_fails ht
  · rintro ⟨pre, post, htokens, hpre, hpost, hcs, hlast⟩
    have hfilter : src.tokens.toList.take (src.endedBy offset) = pre ++ cs := by
      rw [hended, htokens, List.filter_append, List.filter_eq_self.2, List.filter_eq_nil_iff.2,
        List.append_nil]
      · intro t ht
        have := hpost t ht
        simp only [decide_eq_true_eq]
        omega
      · intro t ht
        exact decide_eq_true (hpre t ht)
    rw [hfilter, List.reverse_append, takeWhile_append_of_head, List.reverse_reverse]
    · intro c hc
      exact hcs c (List.mem_reverse.1 hc)
    · intro t ht
      rw [List.head?_reverse] at ht
      exact hlast t ht

lemma commentsAfter_eq_iff : src.commentsAfter offset = cs ↔ src.CommentsFrom offset cs := by
  have hstarted := h.drop_startedBefore offset
  have hsplit := List.take_append_drop (src.startedBefore offset) src.tokens.toList
  rw [Source.commentsAfter, commentsUp_eq_takeWhile]
  constructor
  · rintro rfl
    refine ⟨src.tokens.toList.take (src.startedBefore offset),
      (src.tokens.toList.drop (src.startedBefore offset)).dropWhile Token.isComment,
      ?_, ?_, ?_, ?_, ?_⟩
    · rw [List.takeWhile_append_dropWhile, hsplit]
    · intro t ht
      by_contra hle
      have hmem : t ∈ src.tokens.toList.drop (src.startedBefore offset) := by
        rw [hstarted]
        exact List.mem_filter.2 ⟨List.mem_of_mem_take ht, decide_eq_true (by omega)⟩
      have hpairwise := h.pairwise
      rw [← hsplit] at hpairwise
      have hbefore := (List.pairwise_append.1 hpairwise).2.2 t ht t hmem
      exact hbefore.asymm hbefore
    · intro t ht
      rw [List.takeWhile_append_dropWhile, hstarted] at ht
      exact of_decide_eq_true (List.mem_filter.1 ht).2
    · intro c hc
      exact List.mem_takeWhile_imp hc
    · intro t ht
      exact head?_dropWhile_fails ht
  · rintro ⟨pre, post, htokens, hpre, hpost, hcs, hhead⟩
    have hfilter : src.tokens.toList.drop (src.startedBefore offset) = cs ++ post := by
      rw [hstarted, htokens, List.filter_append, List.filter_eq_nil_iff.2, List.nil_append,
        List.filter_eq_self.2]
      · intro t ht
        exact decide_eq_true (hpost t ht)
      · intro t ht
        have := hpre t ht
        simp only [decide_eq_true_eq]
        omega
    rw [hfilter, takeWhile_append_of_head hcs hhead]

end Ordered

/-! ### Two neighbours -/

namespace Neighbours

variable {src : Source} {pre cs post : List Token} {t u v : Token}

/-- Another token that is no comment stands before both neighbours or after them. -/
lemma outside (hn : src.Neighbours pre cs post t u) (hv : v ∈ src.tokens.toList)
    (hcode : v.isComment = false) : v ∈ pre ∨ v = t ∨ v = u ∨ v ∈ post := by
  rw [hn.tokens] at hv
  simp only [List.mem_append, List.mem_cons] at hv
  rcases hv with hv | hv | hv | hv | hv
  · exact .inl hv
  · exact .inr (.inl hv)
  · rw [hn.between v hv] at hcode
    cases hcode
  · exact .inr (.inr (.inl hv))
  · exact .inr (.inr (.inr hv))

variable (h : src.Ordered) (hn : src.Neighbours pre cs post t u)

include h hn

lemma before_left (hv : v ∈ pre) : v.Before t := by
  have hpairwise := h.pairwise
  rw [hn.tokens] at hpairwise
  exact (List.pairwise_append.1 hpairwise).2.2 v hv t List.mem_cons_self

lemma left_before (hv : v ∈ cs ++ u :: post) : t.Before v := by
  have hpairwise := h.pairwise
  rw [hn.tokens] at hpairwise
  exact (List.pairwise_cons.1 (List.pairwise_append.1 hpairwise).2.1).1 v hv

lemma before_right (hv : v ∈ pre ++ t :: cs) : v.Before u := by
  have hpairwise := h.pairwise
  rw [hn.tokens, ← List.cons_append, ← List.append_assoc] at hpairwise
  exact (List.pairwise_append.1 hpairwise).2.2 v hv u List.mem_cons_self

lemma right_before (hv : v ∈ post) : u.Before v := by
  have hpairwise := h.pairwise
  rw [hn.tokens, ← List.cons_append, ← List.append_assoc] at hpairwise
  exact (List.pairwise_cons.1 (List.pairwise_append.1 hpairwise).2.1).1 v hv

lemma left_before_right : t.Before u := hn.before_right h (by simp)

lemma codeAfter_left : src.codeAfter t.range.stop = some u := by
  have htu := hn.left_before_right h
  refine h.tokenAfter_eq_some.2 ⟨by simp [hn.tokens], by simp [counts, hn.right], htu.2.1, ?_⟩
  intro v hv hcounts hstart
  rcases hn.outside hv (by simpa [counts] using hcounts) with hv | rfl | rfl | hv
  · have hvt := hn.before_left h hv
    unfold Token.Before at hvt
    omega
  · have hnonempty := htu.1
    omega
  · exact .inl rfl
  · exact .inr (hn.right_before h hv)

lemma codeBefore_right : src.codeBefore u.range.start = some t := by
  have htu := hn.left_before_right h
  refine h.tokenBefore_eq_some.2 ⟨by simp [hn.tokens], by simp [counts, hn.left], htu.2.1, ?_⟩
  intro v hv hcounts hstop
  rcases hn.outside hv (by simpa [counts] using hcounts) with hv | rfl | rfl | hv
  · exact .inr (hn.before_left h hv)
  · exact .inl rfl
  · have hnonempty := htu.2.2
    omega
  · have huv := hn.right_before h hv
    unfold Token.Before at huv
    omega

lemma commentsFrom_left : src.CommentsFrom t.range.stop cs := by
  refine ⟨pre ++ [t], u :: post, by simp [hn.tokens], ?_, ?_, hn.between, ?_⟩
  · intro v hv
    rcases List.mem_append.1 hv with hv | hv
    · have hvt := hn.before_left h hv
      unfold Token.Before at hvt
      omega
    · rw [List.mem_singleton.1 hv]
      exact (hn.left_before_right h).1
  · exact fun v hv => (hn.left_before h hv).2.1
  · rintro v ⟨⟩
    exact hn.right

lemma commentsUpTo_right : src.CommentsUpTo u.range.start cs := by
  refine ⟨pre ++ [t], u :: post, by simp [hn.tokens], ?_, ?_, hn.between, ?_⟩
  · intro v hv
    rw [List.append_assoc, List.singleton_append] at hv
    exact (hn.before_right h hv).2.1
  · intro v hv
    rcases List.mem_cons.1 hv with rfl | hv
    · exact (hn.left_before_right h).2.2
    · have huv := hn.right_before h hv
      unfold Token.Before at huv
      omega
  · intro v hv
    rw [List.getLast?_concat, Option.some.injEq] at hv
    rw [← hv]
    exact hn.left

end Neighbours

end Source

/-- **Every lookup is the one that goes through the tokens from end to end.**  The token before an
offset is the last one that ends by it, and the token after it the first one that starts from it on,
where comments count only when they are asked for; the comments before and after it are the longest
run of comments on that side; and an offset is inside a string when some string token starts before
it and ends after it.  So two tokens with only comments between them find each other, and the
comments between them are found from both. -/
theorem Source.Ordered.lookups_linear {src : Source} (h : src.Ordered) :
    (∀ comments offset,
      src.tokenBefore comments offset = (src.tokens.toList.filter fun t =>
        (comments || !t.isComment) && decide (t.range.stop ≤ offset)).getLast? ∧
      src.tokenAfter comments offset = src.tokens.toList.find? fun t =>
        (comments || !t.isComment) && decide (offset ≤ t.range.start)) ∧
    (∀ offset cs,
      (src.commentsBefore offset = cs ↔ src.CommentsUpTo offset cs) ∧
      (src.commentsAfter offset = cs ↔ src.CommentsFrom offset cs)) ∧
    (∀ offset, src.inString offset = true ↔ ∃ t ∈ src.tokens.toList,
      t.kind = .string ∧ t.range.start < offset ∧ offset < t.range.stop) ∧
    ∀ pre cs post t u, src.tokens.toList = pre ++ t :: (cs ++ u :: post) →
      t.isComment = false → u.isComment = false → (∀ c ∈ cs, c.isComment = true) →
        src.codeAfter t.range.stop = some u ∧ src.codeBefore u.range.start = some t ∧
          src.commentsAfter t.range.stop = cs ∧ src.commentsBefore u.range.start = cs := by
  refine ⟨fun comments offset => ⟨?_, ?_⟩, fun offset cs => ⟨?_, ?_⟩, h.inString_iff, ?_⟩
  · exact h.tokenBefore_eq_getLast? comments offset
  · exact h.tokenAfter_eq_find? comments offset
  · exact h.commentsBefore_eq_iff
  · exact h.commentsAfter_eq_iff
  · intro pre cs post t u htokens ht hu hcs
    have hn : src.Neighbours pre cs post t u := ⟨htokens, ht, hu, hcs⟩
    exact ⟨hn.codeAfter_left h, hn.codeBefore_right h,
      h.commentsAfter_eq_iff.2 (hn.commentsFrom_left h),
      h.commentsBefore_eq_iff.2 (hn.commentsUpTo_right h)⟩

/-- The text `{ # a⏎# b⏎1: 2}`. -/
def Sample.annotated : Text :=
  ['\x7b', ' ', '#', ' ', 'a', '\n', '#', ' ', 'b', '\n', '1', ':', ' ', '2', '\x7d']

/-- In `{ # a⏎# b⏎1: 2}` the bracket and the key find each other, and the comments between them are
found from both. -/
theorem lookups_linear_annotated :
    ∃ src, Source.ofText Sample.annotated = .ok src ∧ src.Ordered ∧
      src.codeAfter 1 = some (.make .number ['1'] 10 3 3) ∧
      src.codeBefore 10 = some (.make .operator ['\x7b'] 0 1 1) ∧
      src.commentsAfter 1 =
        [.make .comment ['#', ' ', 'a'] 2 1 1, .make .comment ['#', ' ', 'b'] 6 2 2] ∧
      src.commentsBefore 10 =
        [.make .comment ['#', ' ', 'a'] 2 1 1, .make .comment ['#', ' ', 'b'] 6 2 2] := by
  have hsource : (Source.ofText Sample.annotated).toOption.map (fun src => src.tokens.toList) =
      some ([] ++ .make .operator ['\x7b'] 0 1 1 ::
        ([.make .comment ['#', ' ', 'a'] 2 1 1, .make .comment ['#', ' ', 'b'] 6 2 2] ++
          .make .number ['1'] 10 3 3 ::
            [.make .operator [':'] 11 3 3, .make .number ['2'] 13 3 3,
              .make .operator ['\x7d'] 14 3 3])) := by
    decide +kernel
  obtain ⟨src, hsrc, htokens⟩ := Outcome.exists_of_toOption_map hsource
  have hordered := Source.ordered_of_read (Source.read_of_ofText hsrc)
  obtain ⟨-, -, -, hbetween⟩ := hordered.lookups_linear
  exact ⟨src, hsrc, hordered, hbetween _ _ _ _ _ htokens rfl rfl (by decide)⟩

end KeyOrder
