import KeyOrder.Proofs.Unfinished

/-!
# Tokens cover the text

A token stands where its range says and its lines are those of its ends, in whatever text.  One
thing can be wrong: a string that breaks off at the end of a line is said to end on that line, and
the offset where it ends belongs to the next one.  That takes a lone `\r`, which ends a line for the
syntax tree and not for the tokens, so that the two disagree about where strings and comments are.
-/

namespace KeyOrder

open Text (isBreak Unbroken)

/-! ### Lines -/

namespace Text

/-- A text in which a line break can only be the last character. -/
def OneLine (l : Text) : Prop := ∀ a b, l = a ++ '\n' :: b → b = []

namespace OneLine

variable {l : Text}

lemma drop (h : OneLine l) (n : Nat) : OneLine (l.drop n) := by
  intro a b hl
  refine h (l.take n ++ a) b ?_
  rw [List.append_assoc, ← hl, List.take_append_drop]

/-- Past a line break nothing is left. -/
lemma drop_eq_nil (h : OneLine l) {n : Nat} (hn : '\n' ∈ l.take n) : l.drop n = [] := by
  obtain ⟨a, b, hab⟩ := List.append_of_mem hn
  have hrest := h a (b ++ l.drop n) (by
    rw [← List.cons_append, ← List.append_assoc, ← hab, List.take_append_drop])
  exact (List.append_eq_nil_iff.1 hrest).2

/-- A part that does not end with the line break does not hold it. -/
lemma not_mem_take (h : OneLine l) {n : Nat} (hlast : (l.take n).getLast? ≠ some '\n') :
    '\n' ∉ l.take n := by
  intro hmem
  obtain ⟨a, b, hab⟩ := List.append_of_mem hmem
  have hrest := h a (b ++ l.drop n) (by
    rw [← List.cons_append, ← List.append_assoc, ← hab, List.take_append_drop])
  obtain rfl := (List.append_eq_nil_iff.1 hrest).1
  rw [hab, List.getLast?_append, List.getLast?_singleton] at hlast
  exact hlast rfl

/-- A line has no line break, or one at its end. -/
lemma count_eq (h : OneLine l) :
    l.count '\n' = 0 ∨ l.count '\n' = 1 ∧ l.getLast? = some '\n' := by
  by_cases hmem : '\n' ∈ l
  · obtain ⟨a, b, hab⟩ := List.append_of_mem hmem
    obtain rfl := h a b hab
    have ha : '\n' ∉ a := by
      intro ha
      obtain ⟨a', b', rfl⟩ := List.append_of_mem ha
      have hrest := h a' (b' ++ ['\n']) (by rw [hab, List.append_assoc, List.cons_append])
      exact absurd (List.append_eq_nil_iff.1 hrest).2 (List.cons_ne_nil _ _)
    exact .inr ⟨by rw [hab, List.count_append, List.count_eq_zero_of_not_mem ha]; rfl,
      by rw [hab, List.getLast?_append]; rfl⟩
  · exact .inl (List.count_eq_zero_of_not_mem hmem)

end OneLine

lemma oneLine_of_mem_lines {text l : Text} (hl : l ∈ text.lines) : OneLine l := by
  induction text generalizing l with
  | nil =>
    rw [List.mem_singleton.1 hl]
    intro a b hab
    cases a <;> cases hab
  | cons c cs ih =>
    rw [Text.lines] at hl
    split at hl
    · rcases List.mem_cons.1 hl with rfl | hl
      · intro a b hab
        rcases List.singleton_eq_append_iff.1 hab with ⟨-, h⟩ | ⟨-, h⟩
        · exact (List.cons.inj h).2
        · cases h
      · exact ih hl
    · rename_i hc
      cases hls : Text.lines cs with
      | nil => exact absurd hls (lines_ne_nil cs)
      | cons k ls =>
        rw [hls] at hl ih
        rcases List.mem_cons.1 hl with rfl | hl
        · intro a b hab
          cases a with
          | nil => exact absurd (List.cons.inj hab).1 hc
          | cons d a => exact ih (List.mem_cons_self ..) a b (List.cons.inj hab).2
        · exact ih (List.mem_cons_of_mem _ hl)

end Text

open Text (OneLine)

/-! ### How tokens end -/

namespace Shape

/-- A closed string ends with its quote. -/
lemma getLast?_of_closing {d : Delimiter} {cs : Text} {n : Nat} (h : closing d cs = some n) :
    (cs.take n).getLast? = some d.quote := by
  fun_induction closing d cs generalizing n with
  | case1 cs => cases h
  | case2 c cs hc ih =>
    obtain ⟨m, hm, rfl⟩ := Option.map_eq_some_iff.1 h
    rw [List.take_succ_cons, List.take_succ_cons, List.getLast?_cons, List.getLast?_cons, ih hm]
    rfl
  | case3 => cases h
  | case4 c cs _ hc hclose =>
    cases h
    unfold Delimiter.length
    split
    · rename_i htriple
      have hprefix := hclose.2.resolve_left (by simp [htriple])
      obtain ⟨rest, rfl⟩ := List.isPrefixOf_iff_prefix.1 hprefix
      simp [hclose.1]
    · simp [hclose.1]
  | case5 c cs _ hc hclose ih =>
    obtain ⟨m, hm, rfl⟩ := Option.map_eq_some_iff.1 h
    rw [List.take_succ_cons, List.getLast?_cons, ih hm]
    rfl
  | case6 => cases h

lemma getLast?_of_firstLine {quote : Char} {cs : Text} {n : Nat}
    (h : firstLine quote cs = some (.closed n)) : (cs.take n).getLast? = some quote := by
  fun_induction firstLine quote cs generalizing n with
  | case1 => cases h
  | case2 => cases h
  | case3 c cs _ _ ih =>
    obtain ⟨line, hline, h⟩ := Option.map_eq_some_iff.1 h
    cases line with
    | closed m =>
      cases h
      rw [Nat.add_comm, List.take_succ_cons, List.take_succ_cons, List.getLast?_cons,
        List.getLast?_cons, ih hline]
      rfl
    | continued => cases h
  | case4 => cases h
  | case5 cs => cases h; rfl
  | case6 c cs _ _ _ _ _ ih =>
    obtain ⟨line, hline, h⟩ := Option.map_eq_some_iff.1 h
    cases line with
    | closed m =>
      cases h
      rw [Nat.add_comm, List.take_succ_cons, List.getLast?_cons, ih hline]
      rfl
    | continued => cases h
  | case7 => cases h

/-- What a head says about line breaks: a continuation and a line break hold one, no token ends with
one, and none is a quote. -/
def Head.Breaks (cs : Text) : Head → Prop
  | nothing => True
  | continuation n => '\n' ∈ cs.take n
  | lineBreak n => '\n' ∈ cs.take n
  | token _ n => (cs.take n).getLast? ≠ some '\n'
  | openString d => isBreak d.quote = false

lemma getLast?_ne_of_code {cs : Text} (h : Text.Code cs) : cs.getLast? ≠ some '\n' := by
  intro hlast
  exact absurd (h '\n' (List.mem_of_getLast? hlast)) (by decide)

/-- The end of a string is told by the end of its body. -/
lemma getLast?_take_add {cs : Text} {m n : Nat} {c : Char}
    (h : ((cs.drop m).take n).getLast? = some c) : (cs.take (m + n)).getLast? = some c := by
  rw [List.take_add, List.getLast?_append, h]
  rfl

lemma breaks_of_string? {cs : Text} {r : Head} (h : string? cs = some r) : r.Breaks cs := by
  unfold string? at h
  obtain ⟨⟨m, d⟩, hstart, h⟩ := Option.bind_eq_some_iff.1 h
  have hquote : isBreak d.quote = false := by
    unfold stringStart? at hstart
    extract_lets letters at hstart
    split at hstart
    · obtain ⟨d', hd, hstart⟩ := Option.map_eq_some_iff.1 hstart
      cases hstart
      exact isBreak_quote hd
    · cases hstart
  have hends : ∀ {n : Nat}, ((cs.drop (m + d.length)).take n).getLast? = some d.quote →
      (cs.take (m + d.length + n)).getLast? ≠ some '\n' := by
    intro n hlast
    rw [getLast?_take_add hlast]
    intro hn
    rw [Option.some.inj hn] at hquote
    exact absurd hquote (by decide)
  dsimp only at h
  split at h
  · rename_i htriple
    have hthree : d.length = 3 := if_pos htriple
    split at h
    · rename_i n hclosing
      cases h
      rw [← hthree]
      exact hends (getLast?_of_closing hclosing)
    · cases h
      exact hquote
  · rename_i htriple
    have hone : d.length = 1 := if_neg htriple
    obtain ⟨line, hline, h⟩ := Option.map_eq_some_iff.1 h
    cases line with
    | closed n =>
      cases h
      rw [← hone]
      exact hends (getLast?_of_firstLine hline)
    | continued =>
      cases h
      exact hquote

lemma breaks_of_head? {cs : Text} {r : Head} (h : head? cs = some r) : r.Breaks cs := by
  have hfits := fits_of_head? h
  unfold head? at h
  split at h
  · cases h
    trivial
  · cases h
    simp [Head.Breaks]
  · cases h
    simp [Head.Breaks]
  · cases h
    simp [Head.Breaks]
  · cases h
    simp [Head.Breaks]
  · -- a comment
    cases h
    intro hlast
    obtain ⟨body, hbody, hunbroken⟩ := hfits rfl
    have hmem := List.mem_of_getLast? hlast
    rw [hbody] at hmem
    rcases List.mem_cons.1 hmem with hmem | hmem
    · cases hmem
    · exact absurd (hunbroken '\n' hmem) (by decide)
  · split at h
    · cases h
      exact getLast?_ne_of_code (code_number cs)
    · split at h
      · cases h
        exact getLast?_ne_of_code (code_operator cs)
      · split at h
        · cases h
          exact breaks_of_string? ‹_›
        · unfold word? at h
          dsimp only at h
          split at h
          · cases h
          · cases h
            exact getLast?_ne_of_code (code_word cs)

end Shape

/-! ### Tokens with their lines -/

/-- The line of the end of a token is the given one, or the one before when the token breaks off at
the end of that. -/
def Token.EndsOn (t : Token) (line : Nat) : Prop :=
  t.endLine = line ∨ t.BreaksOff ∧ line = t.endLine + 1

/-- Tokens that stand in a part of a text, which starts at the offset `lo` in the line `line`. -/
def Token.Traced (line lo : Nat) (part : Text) : List Token → Prop
  | [] => True
  | t :: ts => ∃ gap rest, part = gap ++ t.value ++ rest ∧
      t.range = ⟨lo + gap.length, lo + gap.length + t.value.length⟩ ∧
      t.startLine = line + gap.count '\n' ∧
      t.EndsOn (line + (gap ++ t.value).count '\n') ∧
      (t.isComment = true → ∃ body, t.value = '#' :: body ∧ '\n' ∉ body) ∧
      Traced (line + (gap ++ t.value).count '\n') t.range.stop rest ts

namespace Token.Traced

variable {line lo : Nat} {part : Text} {ts us : List Token}

/-- Characters before the part. -/
lemma skip {gap : Text} (h : Traced (line + gap.count '\n') (lo + gap.length) part ts) :
    Traced line lo (gap ++ part) ts := by
  cases ts with
  | nil => trivial
  | cons t ts =>
    obtain ⟨gap', rest, rfl, hrange, hstart, hend, hcomment, hrest⟩ := h
    have hcount : line + (gap ++ gap' ++ t.value).count '\n' =
        line + gap.count '\n' + (gap' ++ t.value).count '\n' := by
      rw [List.append_assoc, List.count_append, Nat.add_assoc]
    refine ⟨gap ++ gap', rest, by simp only [List.append_assoc], ?_, ?_, ?_, hcomment, ?_⟩
    · rw [hrange, List.length_append, Nat.add_assoc lo]
    · rw [hstart, List.count_append, Nat.add_assoc]
    · rwa [hcount]
    · rwa [hcount]

lemma append {part' : Text} (h : Traced line lo part ts)
    (h' : Traced (line + part.count '\n') (lo + part.length) part' us) :
    Traced line lo (part ++ part') (ts ++ us) := by
  induction ts generalizing line lo part with
  | nil => exact skip h'
  | cons t ts ih =>
    obtain ⟨gap, rest, rfl, hrange, hstart, hend, hcomment, hrest⟩ := h
    refine ⟨gap, rest ++ part', by simp only [List.append_assoc], hrange, hstart, hend, hcomment,
      ih hrest ?_⟩
    rw [List.count_append, ← Nat.add_assoc] at h'
    rw [hrange]
    simpa only [List.length_append, ← Nat.add_assoc] using h'

end Token.Traced

namespace Scan

/-- Where the open string starts, if any. -/
def State.OpensAt (st : State) (line lo : Nat) : Prop :=
  ∀ s, st.openString = some s →
    s.start = lo ∧ s.startLine = line ∧ isBreak s.delimiter.quote = false

/-- What a part of a text gives: tokens that stand in its first characters, and an open string with
the others. -/
def Traces (line lo : Nat) (part : Text) (r : List Token × State) : Prop :=
  ∃ front, part = front ++ r.2.pending ∧ Token.Traced line lo front r.1 ∧
    r.2.OpensAt (line + front.count '\n') (lo + front.length)

section

variable {line lo : Nat} {part : Text} {r : List Token × State}

lemma opensAt_of_none {st : State} (hst : st.openString = none) : st.OpensAt line lo := by
  intro s hs
  rw [hst] at hs
  cases hs

/-- Nothing more is read. -/
lemma traces_nil {st : State} (hst : st.openString = none) : Traces line lo part ([], st) :=
  ⟨part, by simp [State.pending, hst], trivial, opensAt_of_none hst⟩

lemma Traces.skip {gap : Text}
    (h : Traces (line + gap.count '\n') (lo + gap.length) part r) :
    Traces line lo (gap ++ part) r := by
  obtain ⟨front, rfl, htraced, hopens⟩ := h
  refine ⟨gap ++ front, by rw [List.append_assoc], htraced.skip, ?_⟩
  rwa [List.count_append, List.length_append, ← Nat.add_assoc, ← Nat.add_assoc]

/-- A token before others. -/
lemma Traces.cons (gap : Text) {t : Token}
    (hrange : t.range = ⟨lo + gap.length, lo + gap.length + t.value.length⟩)
    (hstart : t.startLine = line + gap.count '\n')
    (hend : t.EndsOn (line + (gap ++ t.value).count '\n'))
    (hcomment : t.isComment = true → ∃ body, t.value = '#' :: body ∧ '\n' ∉ body)
    (h : Traces (line + (gap ++ t.value).count '\n') t.range.stop part r) :
    Traces line lo (gap ++ t.value ++ part) (t :: r.1, r.2) := by
  obtain ⟨front, rfl, htraced, hopens⟩ := h
  refine ⟨gap ++ t.value ++ front, by simp only [List.append_assoc],
    ⟨gap, front, rfl, hrange, hstart, hend, hcomment, htraced⟩, ?_⟩
  rw [hrange] at hopens
  rw [List.count_append, ← Nat.add_assoc]
  simpa only [List.length_append, ← Nat.add_assoc] using hopens

/-- A token that stands on one line, after other characters of the line. -/
lemma Traces.cons_line (gap value : Text) (kind : TokenKind) (hgap : '\n' ∉ gap)
    (hvalue : '\n' ∉ value) (hcomment : kind = .comment → ∃ body, value = '#' :: body)
    (h : Traces line (lo + gap.length + value.length) part r) :
    Traces line lo (gap ++ value ++ part)
      (Token.make kind value (lo + gap.length) line line :: r.1, r.2) := by
  have hcount : (gap ++ value).count '\n' = 0 := by
    rw [List.count_append, List.count_eq_zero_of_not_mem hgap,
      List.count_eq_zero_of_not_mem hvalue]
  refine Traces.cons gap (t := .make kind value (lo + gap.length) line line) rfl ?_ ?_ ?_ ?_
  · simp [Token.make, List.count_eq_zero_of_not_mem hgap]
  · refine .inl ?_
    change line = line + (gap ++ value).count '\n'
    rw [hcount]
    rfl
  · intro hkind
    obtain ⟨body, rfl⟩ := hcomment (beq_iff_eq.1 hkind)
    exact ⟨body, rfl, fun hmem => hvalue (List.mem_cons_of_mem _ hmem)⟩
  · change Traces (line + (gap ++ value).count '\n') _ part r
    rw [hcount]
    exact h

/-- Where fewer characters are left than are passed over, nothing is read. -/
lemma traces_scanRest_drop (part : Text) (n : Nat) {st : State} (hst : st.openString = none)
    (h : Traces line (lo + n) (part.drop n) (scanRest line (lo + n) st (part.drop n))) :
    Traces line (lo + (part.take n).length) (part.drop n)
      (scanRest line (lo + n) st (part.drop n)) := by
  by_cases hle : n ≤ part.length
  · rwa [List.length_take_of_le hle]
  · rw [List.drop_eq_nil_of_le (by omega), scanRest]
    exact traces_nil hst

lemma not_mem_blanks (cs : Text) : '\n' ∉ cs.take (cs.takeWhile isBlank).length := by
  intro hmem
  rw [← List.prefix_iff_eq_take.1 (List.takeWhile_prefix _)] at hmem
  exact absurd (List.mem_takeWhile_imp hmem) (by decide)

/-- The rest of a line. -/
lemma traces_scanRest {st : State} (hpart : OneLine part) (hst : st.openString = none) :
    Traces line lo part (scanRest line lo st part) := by
  fun_induction scanRest line lo st part with
  | case1 offset st => exact traces_nil hst
  | case2 offset st c cs blanks body hhead ts st' hrec ih =>
    have hc : '\n' ∉ [c] := by
      intro hmem
      obtain rfl := List.mem_singleton.1 hmem
      have hbody : Shape.head? ('\n' :: cs) = none := hhead
      cases hbody
    have hlater := ih (hpart.drop 1) hst
    rw [hrec] at hlater
    exact Traces.cons_line [] [c] .error List.not_mem_nil hc (fun h => by cases h) hlater
  | case3 offset st c cs blanks body hhead => exact traces_nil hst
  | case4 offset st c cs blanks body n hhead ih =>
    have hnil : body.drop n = [] := (hpart.drop blanks).drop_eq_nil (Shape.breaks_of_head? hhead)
    rw [drop_passed (c := c) (Shape.positive_of_head? hhead)]
    change Traces _ _ _ (scanRest _ _ _ (body.drop n))
    rw [hnil, scanRest]
    exact traces_nil hst
  | case5 offset st c cs blanks body n hhead ih =>
    have hnil : body.drop n = [] := (hpart.drop blanks).drop_eq_nil (Shape.breaks_of_head? hhead)
    rw [drop_passed (c := c) (Shape.positive_of_head? hhead)]
    change Traces _ _ _ (scanRest _ _ _ (body.drop n))
    rw [hnil, scanRest]
    exact traces_nil hst
  | case6 offset st c cs blanks body kind n hhead value st' ts st'' hrec ih =>
    have hdrop : cs.drop (blanks + n - 1) = body.drop n :=
      drop_passed (Shape.positive_of_head? hhead)
    have hvalue : '\n' ∉ body.take n :=
      (hpart.drop blanks).not_mem_take (Shape.breaks_of_head? hhead)
    have hst' : st'.openString = none := hst
    rw [hdrop] at ih hrec
    have hlater := traces_scanRest_drop body n hst' (ih ((hpart.drop blanks).drop n) hst')
    rw [hrec] at hlater
    have hblanks : ((c :: cs).take blanks).length = blanks :=
      List.length_take_of_le (List.takeWhile_prefix _).length_le
    have hwhole : c :: cs = (c :: cs).take blanks ++ value ++ body.drop n := by
      rw [List.append_assoc, List.take_append_drop, List.take_append_drop]
    have htraces : Traces line offset ((c :: cs).take blanks ++ value ++ body.drop n)
        (Token.make kind value (offset + ((c :: cs).take blanks).length) line line :: ts,
          st'') := by
      refine Traces.cons_line _ value kind (not_mem_blanks _) hvalue (fun hkind => ?_)
        (hblanks.symm ▸ hlater)
      obtain ⟨comment, hcomment, -⟩ := Shape.fits_of_head? hhead hkind
      exact ⟨comment, hcomment⟩
    rwa [← hwhole, hblanks] at htraces
  | case7 offset st c cs blanks body d hhead =>
    refine ⟨(c :: cs).take blanks, (List.take_append_drop blanks _).symm, trivial, ?_⟩
    rintro s ⟨⟩
    have hlength : ((c :: cs).take blanks).length = blanks :=
      List.length_take_of_le (List.takeWhile_prefix _).length_le
    exact ⟨by rw [hlength], by rw [List.count_eq_zero_of_not_mem (not_mem_blanks _)]; rfl,
      Shape.breaks_of_head? hhead⟩

/-- An open string that breaks off is a token of its own, and it may hold the end of its line. -/
lemma traces_broken {st : State} {s : OpenString} {l : Text} (hl : OneLine l)
    (hline : s.startLine + s.value.count '\n' = line) :
    Traces s.startLine s.start (s.value ++ l)
      ([.make .error (s.value ++ l) s.start s.startLine line],
        { st with openString := none }) := by
  have hends : Token.EndsOn (.make .error (s.value ++ l) s.start s.startLine line)
      (s.startLine + (s.value ++ l).count '\n') := by
    rw [List.count_append, ← Nat.add_assoc, hline]
    rcases hl.count_eq with hcount | ⟨hcount, hlast⟩
    · exact .inl (by rw [hcount]; rfl)
    · refine .inr ⟨⟨rfl, ?_⟩, by rw [hcount]; rfl⟩
      change (s.value ++ l).getLast? = some '\n'
      rw [List.getLast?_append, hlast]
      rfl
  have htraces : Traces s.startLine s.start ([] ++ (s.value ++ l) ++ [])
      ([.make .error (s.value ++ l) s.start s.startLine line],
        { st with openString := none }) :=
    Traces.cons [] (t := .make .error (s.value ++ l) s.start s.startLine line)
      (r := ([], { st with openString := none })) rfl rfl hends (fun h => by cases h)
      (traces_nil rfl)
  rwa [List.nil_append, List.append_nil] at htraces

/-- A line that goes on with an open string. -/
lemma traces_scanString {offset : Nat} {st : State} {s : OpenString} {l : Text} (hl : OneLine l)
    (hoffset : s.start + s.value.length = offset)
    (hline : s.startLine + s.value.count '\n' = line) (hquote : isBreak s.delimiter.quote = false) :
    Traces s.startLine s.start (s.value ++ l) (scanString line offset st s l) := by
  unfold scanString
  split
  · rename_i n hclosing
    -- the string ends in this line
    have hvalue : '\n' ∉ l.take n := by
      refine hl.not_mem_take ?_
      rw [Shape.getLast?_of_closing hclosing]
      intro hn
      rw [Option.some.inj hn] at hquote
      exact absurd hquote (by decide)
    have hcount : (s.value ++ l.take n).count '\n' = s.value.count '\n' := by
      rw [List.count_append, List.count_eq_zero_of_not_mem hvalue, Nat.add_zero]
    have hlater : Traces line (offset + n) (l.drop n)
        (scanRest line (offset + n) { st with openString := none, strict := false } (l.drop n)) :=
      traces_scanRest (hl.drop n) rfl
    have hrest := traces_scanRest_drop l n rfl hlater
    have hwhole : s.value ++ l = [] ++ (s.value ++ l.take n) ++ l.drop n := by
      rw [List.nil_append, List.append_assoc, List.take_append_drop]
    rw [hwhole]
    refine Traces.cons [] (t := .make .string (s.value ++ l.take n) s.start s.startLine line)
      rfl rfl (.inl ?_) (fun h => by cases h) ?_
    · change line = s.startLine + (s.value ++ l.take n).count '\n'
      rw [hcount, hline]
    · change Traces (s.startLine + (s.value ++ l.take n).count '\n') _ _ _
      rw [hcount, hline]
      simpa only [Token.make, List.length_append, ← Nat.add_assoc, hoffset] using hrest
  · dsimp only
    split
    · refine ⟨[], rfl, trivial, fun s' hs => ?_⟩
      cases hs
      exact ⟨rfl, rfl, hquote⟩
    · exact traces_broken hl hline

/-- A comment of its own line does not hold the end of the line. -/
lemma not_mem_stripBreak {rest : Text} (hrest : OneLine ('#' :: rest)) :
    '\n' ∉ stripBreak ('#' :: rest) ∧ ∃ body, stripBreak ('#' :: rest) = '#' :: body := by
  have hprefix : stripBreak ('#' :: rest) <+: '#' :: rest := List.rdropWhile_prefix _ _
  have hne : ('#' :: rest).rdropWhile isBreak ≠ [] := stripBreak_ne_nil rest
  refine ⟨?_, ?_⟩
  · rw [List.prefix_iff_eq_take.1 hprefix]
    refine hrest.not_mem_take ?_
    rw [← List.prefix_iff_eq_take.1 hprefix]
    intro hlast
    have hnot := List.rdropWhile_last_not isBreak ('#' :: rest) hne
    rw [List.getLast?_eq_some_getLast (stripBreak_ne_nil rest)] at hlast
    exact hnot (by rw [show (List.rdropWhile isBreak ('#' :: rest)).getLast hne = '\n' from
      Option.some.inj hlast]; rfl)
  · cases hstrip : stripBreak ('#' :: rest) with
    | nil => exact absurd hstrip (stripBreak_ne_nil rest)
    | cons c body =>
      rw [hstrip] at hprefix
      exact ⟨body, by rw [(List.cons_prefix_cons.1 hprefix).1]⟩

/-- A line that starts a statement. -/
lemma traces_scanStatement {st : State} (hpart : OneLine part) (hst : st.openString = none)
    (h : scanStatement line lo st part = .ok r) : Traces line lo part r := by
  have hgap := not_mem_blanks part
  rw [← indentation_fst 0] at hgap
  have hcount : line + (part.take (indentation 0 part).1).count '\n' = line := by
    rw [List.count_eq_zero_of_not_mem hgap, Nat.add_zero]
  have hwhole := List.take_append_drop (indentation 0 part).1 part
  have hdropped := hpart.drop (indentation 0 part).1
  unfold scanStatement at h
  simp only at h
  split at h
  · cases h
    exact traces_nil hst
  · rename_i rest hdrop
    cases h
    have hlength : (part.take (indentation 0 part).1).length = (indentation 0 part).1 := by
      have := congrArg List.length hdrop
      rw [List.length_drop, List.length_cons] at this
      exact List.length_take_of_le (by omega)
    rw [hdrop] at hdropped
    obtain ⟨hvalue, hhash⟩ := not_mem_stripBreak hdropped
    obtain ⟨breaks, hbreaks⟩ : ∃ breaks, '#' :: rest = stripBreak ('#' :: rest) ++ breaks :=
      ⟨_, List.rdropWhile_append_rtakeWhile.symm⟩
    have htraces : Traces line lo
        (part.take (indentation 0 part).1 ++ stripBreak ('#' :: rest) ++ breaks)
        (Token.make .comment (stripBreak ('#' :: rest))
          (lo + (part.take (indentation 0 part).1).length) line line :: [], st) :=
      Traces.cons_line _ _ .comment (r := ([], st)) hgap hvalue (fun _ => hhash) (traces_nil hst)
    rw [hdrop] at hwhole
    rwa [List.append_assoc, ← hbreaks, hwhole, hlength] at htraces
  · cases h
    exact traces_nil hst
  · cases h
    exact traces_nil hst
  · obtain ⟨columns, -, h⟩ := Outcome.bind_eq_ok.1 h
    obtain rfl := Outcome.pure_eq_ok.1 h
    have hst' : ({ st with columns := columns } : State).openString = none := hst
    have hlater : Traces line (lo + (indentation 0 part).1) (part.drop (indentation 0 part).1)
        (scanRest line (lo + (indentation 0 part).1) { st with columns := columns }
          (part.drop (indentation 0 part).1)) :=
      traces_scanRest hdropped hst'
    have hrest := traces_scanRest_drop part _ hst' hlater
    rw [← hcount] at hrest
    have htraces := Traces.skip hrest
    rwa [hwhole, hcount] at htraces

/-- A line is read from where the part of the text starts that no token covers. -/
lemma traces_scanLine {lineLo offset : Nat} {st : State} {l : Text} (hl : OneLine l)
    (hoffset : lo + st.pending.length = offset)
    (hline : lineLo + st.pending.count '\n' = line) (hst : st.OpensAt lineLo lo)
    (h : scanLine line offset st l = .ok r) : Traces lineLo lo (st.pending ++ l) r := by
  unfold scanLine at h
  cases hopen : st.openString with
  | some s =>
    have hpending : st.pending = s.value := by simp [State.pending, hopen]
    obtain ⟨rfl, rfl, hquote⟩ := hst s hopen
    simp only [hopen] at h
    cases h
    rw [hpending] at hoffset hline ⊢
    exact traces_scanString hl hoffset hline hquote
  | none =>
    have hpending : st.pending = [] := by simp [State.pending, hopen]
    simp only [hopen] at h
    rw [hpending] at hoffset hline ⊢
    obtain rfl : lo = offset := hoffset
    obtain rfl : lineLo = line := hline
    split at h
    · exact traces_scanStatement hl hopen h
    · cases h
      exact traces_scanRest hl rfl

/-- Lines one after the other, by induction on them: the open string between two lines is the part
that is left for the next. -/
lemma traced_scanLines {lineLo offset : Nat} {st : State} {ls : List Text} {ts : List Token}
    (hls : ∀ l ∈ ls, OneLine l) (hcut : Cut ls) (hoffset : lo + st.pending.length = offset)
    (hline : lineLo + st.pending.count '\n' = line) (hst : st.OpensAt lineLo lo)
    (h : scanLines line offset st ls = .ok ts) :
    Token.Traced lineLo lo (st.pending ++ ls.flatten) ts := by
  induction ls generalizing line lineLo lo offset st ts with
  | nil =>
    rw [scanLines] at h
    split at h
    · cases h
    · cases h
      trivial
  | cons l ls ih =>
    rw [scanLines] at h
    obtain ⟨⟨here, st'⟩, hscan, h⟩ := Outcome.bind_eq_ok.1 h
    obtain ⟨later, hlater, h⟩ := Outcome.bind_eq_ok.1 h
    obtain rfl := Outcome.pure_eq_ok.1 h
    obtain ⟨hl, hls⟩ := List.forall_mem_cons.1 hls
    obtain ⟨-, hlast, hcut⟩ := hcut
    obtain ⟨front, hfront, htraced, hopens⟩ := traces_scanLine hl hoffset hline hst hscan
    dsimp only at hfront htraced hopens
    rw [List.flatten_cons, ← List.append_assoc, hfront, List.append_assoc]
    refine htraced.append ?_
    rcases hlast with rfl | hlast
    · -- the last line
      rw [scanLines] at hlater
      split at hlater
      · cases hlater
      · cases hlater
        trivial
    · have hone : l.count '\n' = 1 := by
        have hmem := List.count_pos_iff.2 (List.mem_of_getLast? hlast)
        rcases hl.count_eq with hcount | ⟨hcount, -⟩
        · omega
        · exact hcount
      have hlength := congrArg List.length hfront
      have hcount := congrArg (List.count '\n') hfront
      simp only [List.length_append, List.count_append] at hlength hcount
      exact ih hls hcut (by omega) (by omega) hopens hlater

end

end Scan

/-- **The tokens of a text stand in it**, with their lines. -/
lemma Token.traced_of_ofText {text : Text} {ts : List Token} (h : Token.ofText text = .ok ts) :
    Token.Traced 1 0 text ts := by
  obtain ⟨hcut, hflatten⟩ := Scan.cut_lines text
  have hlines : ∀ l ∈ text.lines.filter fun l => !l.isEmpty, OneLine l := fun l hl =>
    Text.oneLine_of_mem_lines (List.mem_filter.1 hl).1
  have hinitial : Scan.State.initial.OpensAt 1 0 := Scan.opensAt_of_none rfl
  have htraced : Token.Traced 1 0 (text.lines.filter fun l => !l.isEmpty).flatten ts :=
    Scan.traced_scanLines hlines hcut rfl rfl hinitial h
  rwa [hflatten] at htraced

/-! ### Sources of texts -/

/-- A token of a source stands where its range says, on the lines it tells. -/
structure Source.Holds (src : Source) (t : Token) : Prop where
  nonempty : t.range.start < t.range.stop
  value : src.slice t.range = t.value
  stop : t.range.stop = t.range.start + t.value.length
  startLine : t.startLine = src.lines.lineOf t.range.start
  endLine : t.EndsOn (src.lines.lineOf t.range.stop)
  comment : t.isComment = true ↔ t.kind = .comment
  hash : t.isComment = true → ∃ body, t.value = '#' :: body ∧ '\n' ∉ body

namespace Token.Traced

/-- What is said of each token that stands in the rest of a text. -/
lemma of_mem (pre : Text) {part : Text} {ts : List Token}
    (h : Traced (pre.count '\n' + 1) pre.length part ts) {t : Token} (ht : t ∈ ts) :
    ∃ a b, pre ++ part = a ++ t.value ++ b ∧
      t.range = ⟨a.length, a.length + t.value.length⟩ ∧ t.startLine = a.count '\n' + 1 ∧
      t.EndsOn ((a ++ t.value).count '\n' + 1) ∧
      (t.isComment = true → ∃ body, t.value = '#' :: body ∧ '\n' ∉ body) := by
  induction ts generalizing pre part with
  | nil => exact absurd ht List.not_mem_nil
  | cons u ts ih =>
    obtain ⟨gap, rest, rfl, hrange, hstart, hend, hcomment, hrest⟩ := h
    rcases List.mem_cons.1 ht with rfl | ht
    · refine ⟨pre ++ gap, rest, by simp only [List.append_assoc], ?_, ?_, ?_, hcomment⟩
      · rw [hrange, List.length_append]
      · rw [hstart, List.count_append]
        omega
      · rw [List.append_assoc, List.count_append]
        rwa [Nat.add_right_comm] at hend
    · have hlater : Traced ((pre ++ gap ++ u.value).count '\n' + 1)
          (pre ++ gap ++ u.value).length rest ts := by
        rw [hrange] at hrest
        simp only [List.count_append, List.length_append] at hrest ⊢
        convert hrest using 1
        omega
      obtain ⟨a, b, hab, hfacts⟩ := ih _ hlater ht
      exact ⟨a, b, by rw [← hab]; simp only [List.append_assoc], hfacts⟩

end Token.Traced

/-- The tokens of the source of a text hold what they say. -/
lemma Source.holds_of_read {text : Text} {src : Source} (h : Source.read text = .ok src) :
    ∀ t ∈ src.tokens.toList, src.Holds t := by
  intro t ht
  obtain ⟨htext, hlines, hts⟩ := read_eq_ok h
  obtain ⟨a, b, hab, hrange, hstart, hend, hcomment⟩ :=
    Token.Traced.of_mem [] (Token.traced_of_ofText hts) ht
  rw [List.nil_append] at hab
  have htakeStart : text.take a.length = a := by rw [hab, List.append_assoc, List.take_left]
  have htakeStop : text.take (a.length + t.value.length) = a ++ t.value := by
    rw [hab, ← List.length_append, List.take_left]
  refine ⟨(ordered_of_read h).1 t ht, ?_, by rw [hrange], ?_, ?_, beq_iff_eq, hcomment⟩
  · rw [slice, Text.slice, htext, hrange, hab, List.append_assoc, List.drop_left]
    simp
  · rw [hstart, hlines, lineOf_ofText, hrange, htakeStart]
  · rw [hlines, lineOf_ofText, hrange, htakeStop]
    exact hend

/-- The characters that can stand outside of all tokens. -/
def Text.layout : List Char := [' ', '\t', '\x0c', '\\', '\r', '\n']

lemma Text.mem_layout {c : Char} (h : isLoose c = true) : c ∈ layout := by
  simp only [isLoose, isWhite, Scan.isBlank, isBreak, Bool.or_eq_true, beq_iff_eq] at h
  rcases h with (((rfl | rfl) | rfl) | rfl | rfl) | rfl <;> decide

/-- **The tokens of a text cover it.**  They follow one another, and each one holds what it says of
the text: it is not empty, its value is the text of its range, its lines are those of its ends, and
it is a comment exactly when it starts with a `#` that is taken for one.  Only a string that breaks
off at the end of a line is said to end a line early.  In a text without a lone `\r` there is none,
and outside of the tokens nothing stands but layout. -/
theorem Source.tokens_cover {text : Text} {src : Source} (h : Source.read text = .ok src) :
    src.text = text ∧ (∀ t ∈ src.tokens.toList, src.Holds t) ∧
    (src.tokens.toList.Pairwise fun a b => a.range.stop ≤ b.range.start) ∧
    (text.paired = true →
      (∀ t ∈ src.tokens.toList, t.endLine = src.lines.lineOf t.range.stop) ∧
      ∀ o c, text[o]? = some c →
        (∀ t ∈ src.tokens.toList, t.range.stop ≤ o ∨ o < t.range.start) → c ∈ Text.layout) := by
  obtain ⟨htext, -, -⟩ := read_eq_ok h
  refine ⟨htext, holds_of_read h, (ordered_of_read h).2, fun hpaired => ⟨?_, ?_⟩⟩
  · intro t ht
    rcases (holds_of_read h t ht).endLine with hend | ⟨hoff, -⟩
    · exact hend
    · exact absurd hoff (finished_of_read hpaired h t ht)
  · intro o c hc houtside
    rw [← htext] at hc
    exact Text.mem_layout ((legible_of_read hpaired h).loose o c hc houtside)

/-- The text `x = \⏎'''a⏎b''' # c⏎`, with `\r\n` for its line breaks. -/
def Sample.wrapped : Text :=
  ['x', ' ', '=', ' ', '\\', '\r', '\n', '\'', '\'', '\'', 'a', '\r', '\n', 'b', '\'', '\'', '\'',
   ' ', '#', ' ', 'c', '\r', '\n']

/-- A string over two lines, after a continued line and before a comment. -/
theorem tokens_cover_wrapped :
    ∃ src, Source.ofText Sample.wrapped = .ok src ∧ Sample.wrapped.paired = true ∧
      src.tokens.toList.map (fun t => (t.kind, t.range)) =
        [(.name, ⟨0, 1⟩), (.operator, ⟨2, 3⟩), (.string, ⟨7, 17⟩), (.comment, ⟨18, 21⟩)] ∧
      (∀ t ∈ src.tokens.toList, src.Holds t ∧ t.endLine = src.lines.lineOf t.range.stop) ∧
      ∀ o c, Sample.wrapped[o]? = some c →
        (∀ t ∈ src.tokens.toList, t.range.stop ≤ o ∨ o < t.range.start) → c ∈ Text.layout := by
  have hsource : (Source.ofText Sample.wrapped).toOption.map
      (fun src => src.tokens.toList.map fun t => (t.kind, t.range)) =
      some [(.name, ⟨0, 1⟩), (.operator, ⟨2, 3⟩), (.string, ⟨7, 17⟩), (.comment, ⟨18, 21⟩)] := by
    decide +kernel
  obtain ⟨src, hsrc, htokens⟩ := Outcome.exists_of_toOption_map hsource
  have hpaired : Sample.wrapped.paired = true := by decide
  obtain ⟨-, hholds, -, hrest⟩ := Source.tokens_cover (Source.read_of_ofText hsrc)
  obtain ⟨hends, houtside⟩ := hrest hpaired
  exact ⟨src, hsrc, hpaired, htokens, fun t ht => ⟨hholds t ht, hends t ht⟩, houtside⟩

/-- A text with a lone `\r` in which tokens and tree disagree.  For the tree three quotes start a
string on the second line, and it ends on the fifth; for the tokens they are in a comment, and a
single quote on the next line starts a string that breaks off. -/
def Sample.misread : Text :=
  ['#', '\r', '"', '"', '"', '\n', '\'', '\\', '\n', '\n', '"', '"', '"', ' ', '#', '"', '"', '"',
   '\n']

/-- A token does not always end on the line of its end: the string that breaks off ends before the
fourth line and is said to end on the third. -/
theorem endLine_misread :
    ∃ src, Source.ofText Sample.misread = .ok src ∧
      ∃ t ∈ src.tokens.toList, t.range = ⟨6, 10⟩ ∧ t.endLine = 3 ∧
        src.lines.lineOf t.range.stop = 4 := by
  have hsource : (Source.ofText Sample.misread).toOption.map
      (fun src => src.tokens.toList.any fun t =>
        t.range == ⟨6, 10⟩ && t.endLine == 3 && src.lines.lineOf t.range.stop == 4) =
      some true := by
    decide +kernel
  obtain ⟨src, hsrc, hany⟩ := Outcome.exists_of_toOption_map hsource
  obtain ⟨t, ht, hfacts⟩ := List.any_eq_true.1 hany
  simp only [Bool.and_eq_true, beq_iff_eq] at hfacts
  exact ⟨src, hsrc, t, ht, hfacts.1.1, hfacts.1.2, hfacts.2⟩

end KeyOrder
