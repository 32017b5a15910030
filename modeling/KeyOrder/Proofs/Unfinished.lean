import KeyOrder.Proofs.LineRest

/-!
# No string is left unfinished

Between two lines it is known which string is open, and that the lines that follow close it.  So in
a program without a lone `\r` no token is a string that breaks off at the end of a line.
-/

namespace KeyOrder

open Text (isBreak Quoted Code Unbroken LineEnd)

/-! ### Reading lines -/

/-- A string that is left unfinished at the end of a line. -/
def Token.BreaksOff (t : Token) : Prop := t.kind = .error ∧ t.value.getLast? = some '\n'

lemma Token.not_breaksOff_of_unbroken {t : Token} (h : Unbroken t.value) : ¬t.BreaksOff := by
  rintro ⟨-, hlast⟩
  exact absurd (h '\n' (List.mem_of_getLast? hlast)) (by decide)

namespace Scan

/-- No string is open, and none has broken off. -/
structure State.Clear (st : State) : Prop where
  openString : st.openString = none
  strict : st.strict = false

/-- What has to follow the lines that are read so far: the end of the open string, if any.  Only
the lines of a string between single quotes have to end with a backslash. -/
def State.Awaits (st : State) (rest : Text) : Prop :=
  match st.openString with
  | none => st.strict = false ∧ Quoted rest
  | some s => st.strict = !s.delimiter.triple ∧ s.delimiter.ClosedIn rest

/-- What a line gives: finished tokens, and strings that are closed in what follows. -/
structure Closes (rest : Text) (r : List Token × State) : Prop where
  finished : ∀ t ∈ r.1, ¬t.BreaksOff
  awaits : r.2.Awaits rest

section

variable {x brk rest : Text} {line offset : Nat} {st : State}

lemma State.Clear.awaits (hst : st.Clear) (hq : Quoted rest) : st.Awaits rest := by
  unfold State.Awaits
  rw [hst.openString]
  exact ⟨hst.strict, hq⟩

lemma closes_nil (hst : st.Clear) (hq : Quoted rest) : Closes rest ([], st) :=
  ⟨List.forall_mem_nil _, hst.awaits hq⟩

lemma Closes.cons {t : Token} {r : List Token × State} (ht : ¬t.BreaksOff) (h : Closes rest r) :
    Closes rest (t :: r.1, r.2) :=
  ⟨List.forall_mem_cons.2 ⟨ht, h.finished⟩, h.awaits⟩

/-- What follows the characters after the blanks, seen from the character before. -/
lemma drop_passed {c : Char} {cs : Text} {blanks n : Nat} (hn : 0 < n) :
    cs.drop (blanks + n - 1) = ((c :: cs).drop blanks).drop n := by
  rw [List.drop_drop, show blanks + n = blanks + n - 1 + 1 by omega, List.drop_succ_cons,
    Nat.add_sub_cancel]

/-- Blanks are passed over. -/
lemma passes_blanks (brk : Text) (hq : Quoted (x ++ '\n' :: rest)) :
    Shape.Passes x brk rest ((x ++ brk).takeWhile isBlank).length := by
  have hblank : ∀ c ∈ (x ++ brk).take ((x ++ brk).takeWhile isBlank).length,
      isBlank c = true := by
    rw [← List.prefix_iff_eq_take.1 (List.takeWhile_prefix _)]
    exact fun c hc => List.mem_takeWhile_imp hc
  refine Shape.passes_of_plain (fun c hc => ?_) (fun c hc => ?_) hq
  · have hc := hblank c hc
    simp only [isBlank, Bool.or_eq_true, beq_iff_eq] at hc
    rcases hc with (rfl | rfl) | rfl <;> rfl
  · exact Text.isPlain_of_isWhite (by rw [Text.isWhite, hblank c hc, Bool.true_or])

/-- What stands after the blanks of a line's rest keeps strings closed. -/
lemma keeps_body {l : Text} (hl : l = x ++ brk) (hx : Unbroken x) (hend : LineEnd brk rest)
    (hq : Quoted (x ++ '\n' :: rest)) :
    ∃ y, Unbroken y ∧ l.drop (l.takeWhile isBlank).length = y ++ brk ∧
      Shape.Keeps y brk rest (Shape.head? (l.drop (l.takeWhile isBlank).length)) := by
  subst hl
  obtain ⟨hblanks, hy⟩ := passes_blanks brk hq
  have hdrop := Shape.drop_line hend hblanks
  refine ⟨_, hx.drop _, hdrop, ?_⟩
  rw [hdrop]
  exact Shape.keeps_head? (hx.drop _) hend hy

/-- After a character of a line that starts nothing, strings are closed as before. -/
lemma exists_tail {c : Char} {cs : Text} (hl : c :: cs = x ++ brk) (hx : Unbroken x)
    (hend : LineEnd brk rest) (hq : Quoted (x ++ '\n' :: rest))
    (hhead : Shape.head? ((c :: cs).drop ((c :: cs).takeWhile isBlank).length) = none) :
    ∃ x', x = c :: x' ∧ Quoted (x' ++ '\n' :: rest) := by
  obtain ⟨y, -, hbody, hkeeps⟩ := keeps_body hl hx hend hq
  rw [hhead] at hkeeps
  obtain ⟨d, ds, rfl, hds⟩ := hkeeps
  by_cases hblank : isBlank c = true
  · cases x with
    | nil =>
      rcases hend with rfl | rfl | ⟨rfl, -⟩
      · cases hl
        cases hblank
      · cases hl
        cases hblank
      · cases hl
    | cons e x' =>
      cases hl
      refine ⟨x', rfl, hq.of_cons (Text.isPlain_of_isWhite ?_)⟩
      rw [Text.isWhite, hblank, Bool.true_or]
  · -- there are no blanks, so the character is the one that starts nothing
    rw [List.takeWhile_cons_of_neg hblank, List.length_nil, List.drop_zero, hl] at hbody
    obtain rfl := List.append_cancel_right hbody
    cases hl
    exact ⟨ds, rfl, hds⟩

/-- The rest of a line. -/
lemma closes_scanRest {l : Text} (hl : l = x ++ brk) (hx : Unbroken x) (hend : LineEnd brk rest)
    (hq : Quoted (x ++ '\n' :: rest)) (hst : st.Clear) :
    Closes rest (scanRest line offset st l) := by
  fun_induction scanRest line offset st l generalizing x with
  | case1 offset st =>
    obtain ⟨rfl, rfl⟩ := List.append_eq_nil_iff.1 hl.symm
    exact closes_nil hst (hq.of_cons rfl)
  | case2 offset st c cs blanks body hhead ts st' hrec =>
    rename_i ih
    obtain ⟨x', rfl, hq'⟩ := exists_tail hl hx hend hq hhead
    have hlater := ih (List.cons.inj hl).2 (List.forall_mem_cons.1 hx).2 hq' hst
    rw [hrec] at hlater
    refine Closes.cons (Token.not_breaksOff_of_unbroken ?_) hlater
    exact List.forall_mem_singleton.2 (List.forall_mem_cons.1 hx).1
  | case3 offset st c cs blanks body =>
    rename_i hhead
    obtain ⟨y, -, -, hkeeps⟩ := keeps_body hl hx hend hq
    rw [show Shape.head? _ = _ from hhead] at hkeeps
    exact closes_nil hst hkeeps
  | case4 offset st c cs blanks body n hhead =>
    obtain ⟨y, -, hbody, hkeeps⟩ := keeps_body hl hx hend hq
    rw [show Shape.head? _ = _ from hhead] at hkeeps
    obtain ⟨hnil, hrest⟩ := hkeeps
    rw [drop_passed (c := c) (Shape.positive_of_head? hhead), hbody, hnil, scanRest]
    exact closes_nil ⟨hst.openString, hst.strict⟩ hrest
  | case5 offset st c cs blanks body n hhead =>
    obtain ⟨y, -, hbody, hkeeps⟩ := keeps_body hl hx hend hq
    rw [show Shape.head? _ = _ from hhead] at hkeeps
    obtain ⟨hnil, hrest⟩ := hkeeps
    rw [drop_passed (c := c) (Shape.positive_of_head? hhead), hbody, hnil, scanRest]
    exact closes_nil hst hrest
  | case6 offset st c cs blanks body kind n hhead value st' ts st'' hrec =>
    rename_i ih
    obtain ⟨y, hy, hbody, hkeeps⟩ := keeps_body hl hx hend hq
    rw [show Shape.head? _ = _ from hhead] at hkeeps
    obtain ⟨hvalue, hquoted⟩ := hkeeps
    have hlater := ih
      (by rw [drop_passed (c := c) (Shape.positive_of_head? hhead), hbody,
        Shape.drop_line hend hvalue])
      (hy.drop n) hquoted ⟨hst.openString, hst.strict⟩
    rw [hrec] at hlater
    refine Closes.cons (Token.not_breaksOff_of_unbroken ?_) hlater
    rw [← hbody] at hvalue
    exact hvalue
  | case7 offset st c cs blanks body d =>
    rename_i hhead
    obtain ⟨y, -, -, hkeeps⟩ := keeps_body hl hx hend hq
    rw [show Shape.head? _ = _ from hhead] at hkeeps
    exact ⟨List.forall_mem_nil _, by rw [hst.strict, Bool.false_or], hkeeps⟩

/-- A line that goes on with an open string. -/
lemma closes_scanString {s : OpenString} (hx : Unbroken x) (hend : LineEnd brk rest)
    (hstrict : st.strict = !s.delimiter.triple)
    (hclosed : s.delimiter.ClosedIn (x ++ '\n' :: rest)) :
    Closes rest (scanString line offset st s (x ++ brk)) := by
  obtain ⟨hquote, n, hn, hq⟩ := hclosed
  unfold scanString
  rcases closesBy_of_closing hquote hend hx hn with ⟨hclosing, hle⟩ | ⟨hclosing, hgoes, m, rfl, hm⟩
  · -- the string ends in this line
    rw [hclosing]
    rw [List.drop_append_of_le_length hle] at hq
    refine Closes.cons (fun hoff => ?_)
      (closes_scanRest (List.drop_append_of_le_length hle) (hx.drop n) hend hq ⟨rfl, rfl⟩)
    cases hoff.1
  · rw [hclosing]
    dsimp only
    split
    · refine ⟨List.forall_mem_nil _, hstrict, hquote, m, hm, ?_⟩
      rwa [Nat.add_assoc, ← List.drop_drop, List.drop_left, Nat.add_comm 1, List.drop_succ_cons]
        at hq
    · -- it does go on
      rename_i hgoesOn
      simp only [hstrict, Bool.not_not, Bool.or_eq_true, not_or, Bool.not_eq_true] at hgoesOn
      obtain ⟨⟨htriple, hn'⟩, hrn⟩ := hgoesOn
      have hlast := hgoes.resolve_left (by simp [htriple])
      obtain ⟨y, rfl⟩ := List.getLast?_eq_some_iff.1 hlast
      rcases hend with rfl | rfl | ⟨-, rfl⟩
      · simp [List.isPrefixOf] at hn'
      · simp [List.isPrefixOf] at hrn
      · cases hm

/-- The blanks at the start of a line are counted. -/
lemma indentation_fst (column : Nat) (cs : Text) :
    (indentation column cs).1 = (cs.takeWhile isBlank).length := by
  fun_induction indentation column cs with
  | case1 column cs n k h ih =>
    rw [h] at ih
    rw [List.takeWhile_cons_of_pos rfl, List.length_cons, ← ih]
  | case2 column cs n k h ih =>
    rw [h] at ih
    rw [List.takeWhile_cons_of_pos rfl, List.length_cons, ← ih]
  | case3 column cs n k h ih =>
    rw [h] at ih
    rw [List.takeWhile_cons_of_pos rfl, List.length_cons, ← ih]
  | case4 cs column hspace htab hfeed =>
    cases cs with
    | nil => rfl
    | cons c cs =>
      rw [List.takeWhile_cons_of_neg, List.length_nil]
      simp only [isBlank, Bool.or_eq_true, beq_iff_eq, not_or]
      refine ⟨⟨?_, ?_⟩, ?_⟩
      · rintro rfl
        exact hspace _ rfl
      · rintro rfl
        exact htab _ rfl
      · rintro rfl
        exact hfeed _ rfl

/-- A line that starts a statement. -/
lemma closes_scanStatement {r : List Token × State} (hx : Unbroken x) (hend : LineEnd brk rest)
    (hq : Quoted (x ++ '\n' :: rest)) (hst : st.Clear)
    (h : scanStatement line offset st (x ++ brk) = .ok r) : Closes rest r := by
  obtain ⟨hblanks, hy⟩ := passes_blanks brk hq
  have hdrop := Shape.drop_line hend hblanks
  have hunbroken := hx.drop (indentation 0 (x ++ brk)).1
  rw [← indentation_fst 0] at hdrop hy
  unfold scanStatement at h
  simp only at h
  rw [hdrop] at h
  generalize x.drop (indentation 0 (x ++ brk)).1 = y at h hy hunbroken
  have hbreak : ∀ {c : Char} {cs : Text}, y ++ brk = c :: cs → isBreak c = true → y = [] := by
    intro c cs hcs hc
    cases y with
    | nil => rfl
    | cons d y =>
      cases hcs
      exact absurd hc (by simp [hunbroken c (List.mem_cons_self ..)])
  split at h
  · rename_i hnil
    cases h
    obtain ⟨rfl, -⟩ := List.append_eq_nil_iff.1 hnil
    exact closes_nil hst (hy.of_cons rfl)
  · rename_i cs hhash
    cases h
    refine Closes.cons (fun hoff => ?_) (closes_nil hst ?_)
    · cases hoff.1
    · cases y with
      | nil =>
        rw [List.nil_append] at hhash
        exact absurd rfl (hend.head_ne (a := '#') rfl '#' (by rw [hhash]; rfl))
      | cons c y =>
        cases hhash
        exact (Shape.quoted_of_comment (List.forall_mem_cons.1 hunbroken).2 hy).of_cons rfl
  · rename_i hr
    cases h
    obtain rfl := hbreak hr rfl
    exact closes_nil hst (hy.of_cons rfl)
  · rename_i hn
    cases h
    obtain rfl := hbreak hn rfl
    exact closes_nil hst (hy.of_cons rfl)
  · obtain ⟨columns, -, h⟩ := Outcome.bind_eq_ok.1 h
    obtain rfl := Outcome.pure_eq_ok.1 h
    exact closes_scanRest rfl hunbroken hend hy ⟨hst.openString, hst.strict⟩

/-- A line after others. -/
lemma closes_scanLine {r : List Token × State} (hx : Unbroken x) (hend : LineEnd brk rest)
    (hst : st.Awaits (x ++ '\n' :: rest)) (h : scanLine line offset st (x ++ brk) = .ok r) :
    Closes rest r := by
  unfold scanLine at h
  cases hopen : st.openString with
  | some s =>
    simp only [State.Awaits, hopen] at h hst
    cases h
    exact closes_scanString hx hend hst.1 hst.2
  | none =>
    simp only [State.Awaits, hopen] at h hst
    split at h
    · exact closes_scanStatement hx hend hst.2 ⟨hopen, hst.1⟩ h
    · cases h
      exact closes_scanRest rfl hx hend hst.2 ⟨rfl, hst.1⟩

end

/-- Lines, and the text that is cut into lexemes in their place. -/
def Unifies : List Text → Text → Prop
  | [], _ => True
  | l :: ls, unified => ∃ x brk rest, l = x ++ brk ∧ unified = x ++ '\n' :: rest ∧ Unbroken x ∧
      LineEnd brk rest ∧ Unifies ls rest

/-- Lines are read one after the other, by induction on them: what the lines so far await is found
in the lines that follow. -/
lemma finished_scanLines {ls : List Text} {unified : Text} {line offset : Nat} {st : State}
    {ts : List Token} (hls : Unifies ls unified) (hst : st.Awaits unified)
    (h : scanLines line offset st ls = .ok ts) : ∀ t ∈ ts, ¬t.BreaksOff := by
  induction ls generalizing unified line offset st ts with
  | nil =>
    rw [scanLines] at h
    split at h
    · cases h
    · cases h
      exact List.forall_mem_nil _
  | cons l ls ih =>
    obtain ⟨x, brk, rest, rfl, rfl, hx, hend, hls⟩ := hls
    rw [scanLines] at h
    obtain ⟨⟨here, st'⟩, hline, h⟩ := Outcome.bind_eq_ok.1 h
    obtain ⟨later, hlater, h⟩ := Outcome.bind_eq_ok.1 h
    obtain rfl := Outcome.pure_eq_ok.1 h
    obtain ⟨hfinished, hawaits⟩ := closes_scanLine hx hend hst hline
    exact List.forall_mem_append.2 ⟨hfinished, ih hls hawaits hlater⟩

end Scan

/-! ### The text that is cut into lexemes -/

namespace Lexeme

/-- A character before a text does not make its end a `\r\n`. -/
lemma isPrefixOf_reverse {c : Char} {cs : Text} (hcs : cs ≠ []) (hc : cs = ['\n'] → c ≠ '\r') :
    ['\n', '\r'].isPrefixOf (c :: cs).reverse = ['\n', '\r'].isPrefixOf cs.reverse := by
  rw [List.reverse_cons]
  match hreverse : cs.reverse with
  | [] => exact absurd (List.reverse_eq_nil_iff.1 hreverse) hcs
  | [d] =>
    have hd : d = '\n' → c ≠ '\r' := by
      rintro rfl
      exact hc (List.reverse_eq_iff.1 hreverse)
    simp only [List.cons_append, List.nil_append, List.isPrefixOf, Bool.and_true, Bool.and_false,
      Bool.and_eq_false_iff, beq_eq_false_iff_ne]
    by_cases hdn : d = '\n'
    · exact .inr (Ne.symm (hd hdn))
    · exact .inl (Ne.symm hdn)
  | d :: e :: r => simp [List.isPrefixOf]

/-- What stands before the end of a text does not change how the end is written. -/
lemma normalize_append (front unified : Text) {cs : Text} (hcs : cs ≠ [])
    (hunify : unifyBreaks (front ++ cs) = unified ++ unifyBreaks cs)
    (hpair : ['\n', '\r'].isPrefixOf (front ++ cs).reverse =
      ['\n', '\r'].isPrefixOf cs.reverse) :
    normalize (front ++ cs) = unified ++ normalize cs := by
  have hlast : (unified ++ unifyBreaks cs).getLast? = (unifyBreaks cs).getLast? :=
    List.getLast?_append_of_ne_nil _ (mt unifyBreaks_eq_nil.1 hcs)
  unfold normalize
  dsimp only
  rw [hunify, hpair, hlast]
  split
  · rfl
  · rw [List.append_assoc]

lemma normalize_cons {c : Char} (hc : isBreak c = false) (cs : Text) :
    normalize (c :: cs) = c :: normalize cs := by
  simp only [isBreak, Bool.or_eq_false_iff, beq_eq_false_iff_ne] at hc
  have hunify : unifyBreaks (c :: cs) = c :: unifyBreaks cs := unifyBreaks_cons hc.1 cs
  by_cases hcs : cs = []
  · subst hcs
    have hlast : ¬((unifyBreaks [c]).getLast? = some '\n' ∧
        ['\n', '\r'].isPrefixOf [c].reverse = false) := by
      rw [hunify]
      rintro ⟨h, -⟩
      exact hc.2 (by simpa [unifyBreaks] using h)
    unfold normalize
    dsimp only
    rw [if_neg hlast, hunify]
    rfl
  · exact normalize_append [c] [c] hcs hunify
      (isPrefixOf_reverse hcs fun _ => hc.1)

lemma normalize_pair (cs : Text) : normalize ('\r' :: '\n' :: cs) = '\n' :: normalize cs := by
  by_cases hcs : cs = []
  · rw [hcs]
    rfl
  · refine normalize_append ['\r', '\n'] ['\n'] hcs rfl ?_
    refine (isPrefixOf_reverse (List.cons_ne_nil _ _) fun h => ?_).trans
      (isPrefixOf_reverse hcs fun _ => by decide)
    exact absurd (List.cons.inj h).2 hcs

lemma normalize_break {cs : Text} (hcs : cs ≠ []) :
    normalize ('\n' :: cs) = '\n' :: normalize cs :=
  normalize_append ['\n'] ['\n'] hcs (unifyBreaks_cons (by decide) cs)
    (isPrefixOf_reverse hcs fun _ => by decide)

end Lexeme

namespace Scan

/-- The lines of a text without a lone `\r` are the lines of the text that is cut into lexemes. -/
lemma unifies_lines {text : Text} (hpaired : text.paired = true) :
    Unifies (text.lines.filter fun l => !l.isEmpty) (Lexeme.normalize text) := by
  induction text, hpaired using Text.paired_induction with
  | nil => trivial
  | pair cs _ _ ih =>
    have hlines : Text.lines ('\r' :: '\n' :: cs) = ['\r', '\n'] :: Text.lines cs := rfl
    rw [hlines, List.filter_cons_of_pos rfl, Lexeme.normalize_pair]
    exact ⟨[], ['\r', '\n'], _, rfl, rfl, List.forall_mem_nil _, .inr (.inl rfl), ih⟩
  | cons c cs _ _ hr ih =>
    by_cases hn : c = '\n'
    · subst hn
      have hlines : Text.lines ('\n' :: cs) = ['\n'] :: Text.lines cs := rfl
      rw [hlines, List.filter_cons_of_pos rfl]
      by_cases hnil : cs = []
      · subst hnil
        exact ⟨[], ['\n'], [], rfl, rfl, List.forall_mem_nil _, .inl rfl, trivial⟩
      · rw [Lexeme.normalize_break hnil]
        exact ⟨[], ['\n'], _, rfl, rfl, List.forall_mem_nil _, .inl rfl, ih⟩
    · -- the character joins the first line of the rest
      have hc : isBreak c = false := by simpa [isBreak, hn] using hr
      rw [Lexeme.normalize_cons hc, Text.lines, if_neg hn]
      cases hls : Text.lines cs with
      | nil => exact absurd hls (lines_ne_nil cs)
      | cons l ls =>
        have hlater := ih
        rw [hls] at hlater
        dsimp only
        rw [List.filter_cons_of_pos rfl]
        cases l with
        | nil =>
          obtain ⟨rfl, rfl⟩ := eq_nil_of_lines hls
          exact ⟨[c], [], [], rfl, rfl, List.forall_mem_singleton.2 hc, .inr (.inr ⟨rfl, rfl⟩),
            trivial⟩
        | cons d l =>
          rw [List.filter_cons_of_pos rfl] at hlater
          obtain ⟨x, brk, rest, hl, hunified, hx, hend, hls⟩ := hlater
          exact ⟨c :: x, brk, rest, by rw [hl]; rfl, by rw [hunified]; rfl,
            List.forall_mem_cons.2 ⟨hc, hx⟩, hend, hls⟩

end Scan

/-- **No token of a program without a lone `\r` is an unfinished string.** -/
lemma Source.finished_of_read {text : Text} (hpaired : text.paired = true) {src : Source}
    (h : Source.read text = .ok src) : ∀ t ∈ src.tokens.toList, ¬t.BreaksOff := by
  obtain ⟨-, -, hts⟩ := Source.read_eq_ok h
  obtain ⟨ls, j, hls, -⟩ := Node.ofText?_eq_some (Source.tree_of_read h)
  have hquoted : Quoted (Lexeme.normalize text) := (Lexeme.cuts_of_cut hls).quoted
  exact Scan.finished_scanLines (Scan.unifies_lines hpaired)
    (Scan.State.Clear.awaits ⟨rfl, rfl⟩ hquoted) hts

end KeyOrder
