import KeyOrder.Proofs.Layout
import KeyOrder.Proofs.Outcome

/-!
# The tokens of a text are in order

Tokens are read line by line, and a string may go on over several lines.  What is known between two
lines is where the part of the text starts that no token covers yet: at the start of the next line,
or at the start of the string that is still open.  Every line adds tokens from there on that follow
one another, are not empty and do not start with a line break, and their lines grow with them.
-/

namespace KeyOrder

/-- No token starts with a line break, or past the end of the text. -/
def Source.BreakFree (src : Source) : Prop :=
  ∀ t ∈ src.tokens.toList, endsLine (src.text.drop t.range.start) = false

/-- The lines of tokens grow with them. -/
structure Source.LinesGrow (src : Source) : Prop where
  each : ∀ t ∈ src.tokens.toList, t.startLine ≤ t.endLine
  pairwise : src.tokens.toList.Pairwise fun a b => a.endLine ≤ b.startLine

/-- Tokens that follow one another, from one offset and line to another, none of them empty or at a
line break. -/
def Token.Run (text : Text) (lo loLine hi hiLine : Nat) : List Token → Prop
  | [] => lo ≤ hi ∧ loLine ≤ hiLine
  | t :: ts => (lo ≤ t.range.start ∧ t.range.start < t.range.stop ∧ loLine ≤ t.startLine ∧
      t.startLine ≤ t.endLine ∧ endsLine (text.drop t.range.start) = false) ∧
    Run text t.range.stop t.endLine hi hiLine ts

namespace Token.Run

variable {text : Text} {lo mid hi loLine midLine hiLine : Nat} {ts us : List Token}

lemma le (h : Run text lo loLine hi hiLine ts) : lo ≤ hi ∧ loLine ≤ hiLine := by
  induction ts generalizing lo loLine with
  | nil => exact h
  | cons t ts ih =>
    obtain ⟨hstop, hline⟩ := ih h.2
    obtain ⟨hlo, hlt, hloLine, hle, -⟩ := h.1
    omega

lemma mono {lo' loLine' : Nat} (hlo : lo' ≤ lo) (hline : loLine' ≤ loLine)
    (h : Run text lo loLine hi hiLine ts) : Run text lo' loLine' hi hiLine ts := by
  cases ts with
  | nil => exact ⟨Nat.le_trans hlo h.1, Nat.le_trans hline h.2⟩
  | cons t ts =>
    obtain ⟨⟨hlo', hlt, hline', hrest⟩, hrun⟩ := h
    exact ⟨⟨Nat.le_trans hlo hlo', hlt, Nat.le_trans hline hline', hrest⟩, hrun⟩

lemma append (h : Run text lo loLine mid midLine ts) (h' : Run text mid midLine hi hiLine us) :
    Run text lo loLine hi hiLine (ts ++ us) := by
  induction ts generalizing lo loLine with
  | nil => exact h'.mono h.1 h.2
  | cons t ts ih => exact ⟨h.1, ih h.2⟩

/-- What a run says of each of its tokens. -/
lemma of_mem (h : Run text lo loLine hi hiLine ts) {t : Token} (ht : t ∈ ts) :
    lo ≤ t.range.start ∧ t.range.start < t.range.stop ∧ loLine ≤ t.startLine ∧
      t.startLine ≤ t.endLine ∧ endsLine (text.drop t.range.start) = false := by
  induction ts generalizing lo loLine with
  | nil => exact absurd ht List.not_mem_nil
  | cons u ts ih =>
    rcases List.mem_cons.1 ht with rfl | ht
    · exact h.1
    · obtain ⟨hlo, hlt, hline, hrest⟩ := ih h.2 ht
      obtain ⟨hulo, hult, huline, hule, -⟩ := h.1
      exact ⟨by omega, hlt, by omega, hrest⟩

lemma pairwise (h : Run text lo loLine hi hiLine ts) :
    ts.Pairwise fun a b => a.range.stop ≤ b.range.start ∧ a.endLine ≤ b.startLine := by
  induction ts generalizing lo loLine with
  | nil => exact .nil
  | cons t ts ih =>
    refine .cons (fun u hu => ?_) (ih h.2)
    obtain ⟨hstart, -, hline, -⟩ := h.2.of_mem hu
    exact ⟨hstart, hline⟩

end Token.Run

/-! ### What stands at the start of a text -/

namespace Shape

/-- A line break is never taken for a token. -/
lemma head?_of_endsLine {cs : Text} (h : endsLine cs = true) :
    head? cs = some .nothing ∨ ∃ n, head? cs = some (.lineBreak n) := by
  unfold endsLine at h
  split at h
  · exact .inl rfl
  · exact .inr ⟨1, rfl⟩
  · exact .inr ⟨2, rfl⟩
  · cases h

lemma endsLine_of_head? {cs : Text} {r : Option Head} (hr : head? cs = r)
    (hnothing : r ≠ some .nothing) (hbreak : ∀ n, r ≠ some (.lineBreak n)) :
    endsLine cs = false := by
  by_contra h
  rw [Bool.not_eq_false] at h
  rcases head?_of_endsLine h with hhead | ⟨n, hhead⟩
  · exact hnothing (hr.symm.trans hhead)
  · exact hbreak n (hr.symm.trans hhead)

/-- A head that stands for characters stands for at least one. -/
def Head.Positive : Head → Prop
  | continuation n => 0 < n
  | lineBreak n => 0 < n
  | token _ n => 0 < n
  | _ => True

lemma positive_of_string? {cs : Text} {r : Head} (h : string? cs = some r) : r.Positive := by
  unfold string? at h
  obtain ⟨⟨m, d⟩, -, h⟩ := Option.bind_eq_some_iff.1 h
  simp only at h
  split at h
  · split at h
    · cases h
      simp only [Head.Positive]
      omega
    · cases h
      trivial
  · obtain ⟨line, -, h⟩ := Option.map_eq_some_iff.1 h
    cases line with
    | closed n =>
      cases h
      simp only [Head.Positive]
      omega
    | continued =>
      cases h
      trivial

lemma positive_of_word? {cs : Text} {r : Head} (h : word? cs = some r) : r.Positive := by
  unfold word? at h
  simp only at h
  split at h
  · cases h
  · cases h
    exact Nat.pos_of_ne_zero ‹_›

lemma length_pos_of_head? {cs : Text} {r : Head} (h : head? cs = some r) (hr : r ≠ .nothing) :
    0 < cs.length := by
  cases cs with
  | nil => exact absurd (Option.some.inj h).symm hr
  | cons c cs => exact Nat.succ_pos _

/-- Nothing that is read is empty. -/
lemma positive_of_head? {cs : Text} {r : Head} (h : head? cs = some r) : r.Positive := by
  unfold head? at h
  split at h
  · cases h
    trivial
  · cases h
    exact Nat.succ_pos _
  · cases h
    exact Nat.succ_pos _
  · cases h
    exact Nat.succ_pos _
  · cases h
    exact Nat.succ_pos _
  · cases h
    simp only [Head.Positive]
    omega
  · split at h
    · cases h
      exact Nat.pos_of_ne_zero ‹_›
    · split at h
      · cases h
        exact Nat.pos_of_ne_zero ‹_›
      · split at h
        · cases h
          exact positive_of_string? ‹_›
        · exact positive_of_word? h

end Shape

lemma Scan.endsLine_of_isBlank {c : Char} (hc : isBlank c = true) (cs : Text) :
    endsLine (c :: cs) = false := by
  simp only [isBlank, Bool.or_eq_true, beq_iff_eq] at hc
  rcases hc with (rfl | rfl) | rfl <;> rfl

/-! ### Reading a line -/

namespace Scan

/-- A part of a text from an offset on shows its line breaks as the text does. -/
def Shows (text : Text) (offset : Nat) (rest : Text) : Prop :=
  ∀ k < rest.length, endsLine (text.drop (offset + k)) = endsLine (rest.drop k)

lemma Shows.drop {text rest : Text} {offset : Nat} (h : Shows text offset rest) (n : Nat) :
    Shows text (offset + n) (rest.drop n) := by
  intro k hk
  rw [List.length_drop] at hk
  rw [Nat.add_assoc, h (n + k) (by omega), List.drop_drop]

namespace State

/-- Where the part of the text starts that no token covers, when the line ends at `stop`. -/
def uncovered (st : State) (stop : Nat) : Nat := (st.openString.map OpenString.start).getD stop

/-- The line of the part of the text that no token covers. -/
def uncoveredLine (st : State) (line : Nat) : Nat :=
  (st.openString.map OpenString.startLine).getD line

/-- An open string reaches up to the end of the line. -/
def Sound (text : Text) (line stop : Nat) (st : State) : Prop :=
  ∀ s, st.openString = some s → s.value ≠ [] ∧ s.start + s.value.length = stop ∧
    s.startLine ≤ line ∧ endsLine (text.drop s.start) = false

end State

/-- What a line gives: tokens from an offset on, up to where the line or an open string starts. -/
structure Reads (text : Text) (line lo loLine stop : Nat) (r : List Token × State) : Prop where
  run : Token.Run text lo loLine (r.2.uncovered stop) (r.2.uncoveredLine line) r.1
  sound : r.2.Sound text line stop

namespace Reads

variable {text : Text} {line lo loLine stop : Nat} {r : List Token × State}

/-- A token before others. -/
lemma cons {t : Token} (h : Reads text line t.range.stop t.endLine stop r)
    (hlo : lo ≤ t.range.start) (hlt : t.range.start < t.range.stop) (hline : loLine ≤ t.startLine)
    (hle : t.startLine ≤ t.endLine) (hbreak : endsLine (text.drop t.range.start) = false) :
    Reads text line lo loLine stop (t :: r.1, r.2) :=
  ⟨⟨⟨hlo, hlt, hline, hle, hbreak⟩, h.run⟩, h.sound⟩

lemma mono {lo' : Nat} (hlo : lo' ≤ lo) (h : Reads text line lo loLine stop r) :
    Reads text line lo' loLine stop r :=
  ⟨h.run.mono hlo (Nat.le_refl _), h.sound⟩

/-- Nothing more is read. -/
lemma nil {st : State} (hst : st.openString = none) (hlo : lo ≤ stop) :
    Reads text line lo line stop ([], st) := by
  refine ⟨⟨?_, ?_⟩, fun s hs => ?_⟩
  · simp [State.uncovered, hst, hlo]
  · simp [State.uncoveredLine, hst]
  · rw [hst] at hs
    cases hs

end Reads

/-- What is left of a line after its first characters is read from there on, or it is empty when
they are all. -/
lemma reads_drop {text : Text} {line offset blanks n : Nat} {st : State} {c : Char} {cs : Text}
    (hn : 0 < n) (hshows : Shows text offset (c :: cs))
    (ih : Shows text (offset + blanks + n) (cs.drop (blanks + n - 1)) → st.openString = none →
      Reads text line (offset + blanks + n) line
        (offset + blanks + n + (cs.drop (blanks + n - 1)).length)
        (scanRest line (offset + blanks + n) st (cs.drop (blanks + n - 1))))
    (hst : st.openString = none) :
    Reads text line (offset + min (blanks + n) (c :: cs).length) line (offset + (c :: cs).length)
      (scanRest line (offset + blanks + n) st (cs.drop (blanks + n - 1))) := by
  by_cases hle : blanks + n ≤ (c :: cs).length
  · have hdrop : (c :: cs).drop (blanks + n) = cs.drop (blanks + n - 1) := by
      obtain ⟨k, hk⟩ : ∃ k, blanks + n = k + 1 := ⟨blanks + n - 1, by omega⟩
      rw [hk, List.drop_succ_cons, Nat.add_sub_cancel]
    have hreads := ih (by
      rw [← hdrop, Nat.add_assoc]
      exact hshows.drop (blanks + n)) hst
    rw [List.length_cons] at hle
    rw [List.length_drop, show offset + blanks + n + (cs.length - (blanks + n - 1)) =
      offset + (c :: cs).length by rw [List.length_cons]; omega] at hreads
    exact hreads.mono (by omega)
  · rw [List.length_cons] at hle
    rw [List.drop_eq_nil_of_le (by omega), scanRest]
    exact .nil hst (by omega)

/-- The rest of a line is read from where it starts to its end. -/
lemma reads_scanRest {text : Text} {line offset : Nat} {st : State} {rest : Text}
    (hshows : Shows text offset rest) (hst : st.openString = none) :
    Reads text line offset line (offset + rest.length) (scanRest line offset st rest) := by
  fun_induction scanRest line offset st rest with
  | case1 offset st => exact .nil hst (Nat.le_refl _)
  | case2 offset st c cs blanks body hhead ts st' hrec ih =>
    -- nothing known: the first character is a token, even if it is a blank
    have hreads := ih (hshows.drop 1) hst
    rw [hrec, show offset + 1 + cs.length = offset + (c :: cs).length by
      rw [List.length_cons]; omega] at hreads
    refine Reads.cons (t := .make .error [c] offset line line) hreads (Nat.le_refl _)
      (Nat.lt_succ_self _) (Nat.le_refl _) (Nat.le_refl _) ?_
    have hbreak := hshows 0 (Nat.succ_pos _)
    rw [Nat.add_zero, List.drop_zero] at hbreak
    refine hbreak.trans ?_
    by_cases hblank : isBlank c = true
    · exact endsLine_of_isBlank hblank cs
    · have hbody : body = c :: cs := by
        simp only [body, blanks, List.takeWhile_cons_of_neg hblank, List.length_nil, List.drop_zero]
      exact Shape.endsLine_of_head? (hbody ▸ hhead) (by simp) (by simp)
  | case3 offset st c cs blanks body hhead => exact .nil hst (Nat.le_add_right ..)
  | case4 offset st c cs blanks body n hhead ih =>
    exact (reads_drop (Shape.positive_of_head? hhead) hshows ih hst).mono
      (Nat.le_add_right ..)
  | case5 offset st c cs blanks body n hhead ih =>
    exact (reads_drop (Shape.positive_of_head? hhead) hshows ih hst).mono
      (Nat.le_add_right ..)
  | case6 offset st c cs blanks body kind n hhead value st' ts st'' hrec ih =>
    have hn : 0 < n := Shape.positive_of_head? hhead
    have hreads := reads_drop hn hshows ih hst
    rw [hrec] at hreads
    have hbody : body.length = (c :: cs).length - blanks := List.length_drop
    have hpos : 0 < body.length := Shape.length_pos_of_head? hhead nofun
    have hvalue : value.length = min n body.length := List.length_take
    refine Reads.cons (t := .make kind value (offset + blanks) line line) (hreads.mono ?_)
      (Nat.le_add_right ..) ?_ (Nat.le_refl _) (Nat.le_refl _) ?_
    · simp only [Token.make]
      omega
    · simp only [Token.make]
      omega
    · refine (hshows blanks (by omega)).trans ?_
      exact Shape.endsLine_of_head? hhead (by simp) (by simp)
  | case7 offset st c cs blanks body d hhead =>
    -- a string that is open at the end of the line covers the rest of it
    have hbody : body.length = (c :: cs).length - blanks := List.length_drop
    have hpos : 0 < body.length := Shape.length_pos_of_head? hhead nofun
    refine ⟨⟨Nat.le_add_right .., Nat.le_refl _⟩, ?_⟩
    rintro s ⟨⟩
    refine ⟨List.length_pos_iff.1 hpos, ?_, Nat.le_refl _, ?_⟩
    · simp only
      omega
    · refine (hshows blanks (by omega)).trans ?_
      exact Shape.endsLine_of_head? hhead (by simp) (by simp)

/-! ### Reading all lines -/

/-- A line is read after its first characters, all of them when there are fewer. -/
lemma reads_scanRest_drop {text : Text} {line offset : Nat} {st : State} {l : Text}
    (hshows : Shows text offset l) (hst : st.openString = none) (n : Nat) :
    Reads text line (offset + min n l.length) line (offset + l.length)
      (scanRest line (offset + n) st (l.drop n)) := by
  by_cases hle : n ≤ l.length
  · have hreads : Reads text line (offset + n) line (offset + n + (l.drop n).length)
        (scanRest line (offset + n) st (l.drop n)) := reads_scanRest (hshows.drop n) hst
    rw [List.length_drop, show offset + n + (l.length - n) = offset + l.length by omega] at hreads
    exact hreads.mono (by omega)
  · rw [List.drop_eq_nil_of_le (by omega), scanRest]
    exact .nil hst (by omega)

/-- A line that goes on with an open string is read from the start of the string. -/
lemma reads_scanString {text : Text} {line offset : Nat} {st : State} {s : OpenString}
    {l : Text} (hshows : Shows text offset l) (hvalue : s.value ≠ [])
    (hstop : s.start + s.value.length = offset) (hline : s.startLine ≤ line)
    (hbreak : endsLine (text.drop s.start) = false) :
    Reads text line s.start s.startLine (offset + l.length) (scanString line offset st s l) := by
  have hpos := List.length_pos_iff.2 hvalue
  unfold scanString
  split
  · rename_i n _
    -- the string ends in this line
    have hreads : Reads text line (offset + min n l.length) line (offset + l.length)
        (scanRest line (offset + n) { st with openString := none, strict := false } (l.drop n)) :=
      reads_scanRest_drop hshows rfl n
    refine Reads.cons (t := .make .string (s.value ++ l.take n) s.start s.startLine line)
      (hreads.mono ?_) (Nat.le_refl _) ?_ (Nat.le_refl _) hline hbreak
    · simp only [Token.make, List.length_append, List.length_take]
      omega
    · simp only [Token.make, List.length_append]
      omega
  · dsimp only
    split
    · refine ⟨⟨Nat.le_refl _, Nat.le_refl _⟩, ?_⟩
      rintro _ ⟨⟩
      refine ⟨by simp [hvalue], ?_, hline, hbreak⟩
      simp only [List.length_append]
      omega
    · -- an unfinished string is a token of its own
      refine Reads.cons (t := .make .error (s.value ++ l) s.start s.startLine line)
        (Reads.nil rfl ?_) (Nat.le_refl _) ?_ (Nat.le_refl _) hline hbreak
      · simp only [Token.make, List.length_append]
        omega
      · simp only [Token.make, List.length_append]
        omega

lemma stripBreak_ne_nil (cs : Text) : stripBreak ('#' :: cs) ≠ [] := by
  rw [stripBreak, Ne, List.reverse_eq_nil_iff, List.dropWhile_eq_nil_iff]
  intro h
  exact absurd (h '#' (by simp)) (by decide)

lemma length_stripBreak_le (cs : Text) : (stripBreak cs).length ≤ cs.length := by
  rw [stripBreak, List.length_reverse]
  exact Nat.le_trans (List.dropWhile_sublist _).length_le (by simp)

/-- A line that starts a statement is read from its start. -/
lemma reads_scanStatement {text : Text} {line offset : Nat} {st : State} {l : Text}
    {r : List Token × State} (hshows : Shows text offset l) (hst : st.openString = none)
    (h : scanStatement line offset st l = .ok r) :
    Reads text line offset line (offset + l.length) r := by
  unfold scanStatement at h
  simp only at h
  split at h
  · cases h
    exact .nil hst (Nat.le_add_right ..)
  · rename_i rest hdrop
    cases h
    have hlength := congrArg List.length hdrop
    rw [List.length_drop, List.length_cons] at hlength
    have hpos := List.length_pos_iff.2 (stripBreak_ne_nil rest)
    have hle := length_stripBreak_le ('#' :: rest)
    rw [List.length_cons] at hle
    refine Reads.cons (t := .make .comment (stripBreak ('#' :: rest)) _ line line)
      (Reads.nil hst ?_) (Nat.le_add_right ..) ?_ (Nat.le_refl _) (Nat.le_refl _) ?_
    · simp only [Token.make]
      omega
    · simp only [Token.make]
      omega
    · refine (hshows _ (by omega)).trans ?_
      rw [hdrop]
      rfl
  · cases h
    exact .nil hst (Nat.le_add_right ..)
  · cases h
    exact .nil hst (Nat.le_add_right ..)
  · obtain ⟨columns, -, h⟩ := Outcome.bind_eq_ok.1 h
    obtain rfl := Outcome.pure_eq_ok.1 h
    refine Reads.mono (Nat.le_add_right ..) (reads_scanRest_drop hshows ?_ (indentation 0 l).1)
    exact hst

/-- A line is read from where the part of the text starts that no token covers. -/
lemma reads_scanLine {text : Text} {line offset : Nat} {st : State} {l : Text}
    {r : List Token × State} (hshows : Shows text offset l) (hst : st.Sound text line offset)
    (h : scanLine line offset st l = .ok r) :
    Reads text line (st.uncovered offset) (st.uncoveredLine line) (offset + l.length) r := by
  unfold scanLine at h
  cases hopen : st.openString with
  | some s =>
    obtain ⟨hvalue, hstop, hline, hbreak⟩ := hst s hopen
    simp only [hopen] at h
    cases h
    simp only [State.uncovered, State.uncoveredLine, hopen, Option.map_some, Option.getD_some]
    exact reads_scanString hshows hvalue hstop hline hbreak
  | none =>
    simp only [hopen] at h
    simp only [State.uncovered, State.uncoveredLine, hopen, Option.map_none, Option.getD_none]
    split at h
    · exact reads_scanStatement hshows hopen h
    · cases h
      exact reads_scanRest hshows rfl

/-- Lines one after the other: none is empty, and all but the last one end with a line break. -/
def Cut : List Text → Prop
  | [] => True
  | l :: ls => l ≠ [] ∧ (ls = [] ∨ l.getLast? = some '\n') ∧ Cut ls

lemma eq_nil_of_lines {text : Text} {ls : List Text} (h : text.lines = [] :: ls) :
    text = [] ∧ ls = [] := by
  cases text with
  | nil =>
    cases h
    exact ⟨rfl, rfl⟩
  | cons c cs =>
    rw [Text.lines] at h
    split at h
    · cases h
    · split at h <;> cases h

lemma cut_lines (text : Text) :
    Cut (text.lines.filter fun l => !l.isEmpty) ∧
      (text.lines.filter fun l => !l.isEmpty).flatten = text := by
  induction text with
  | nil => exact ⟨trivial, rfl⟩
  | cons c cs ih =>
    rw [Text.lines]
    split
    · rename_i hc
      rw [List.filter_cons_of_pos rfl, List.flatten_cons, ih.2]
      exact ⟨⟨by simp, .inr (by simp [hc]), ih.1⟩, rfl⟩
    · -- the character joins the first line of the rest
      cases hls : Text.lines cs with
      | nil => exact absurd hls (lines_ne_nil cs)
      | cons l ls =>
        rw [hls] at ih
        simp only
        rw [List.filter_cons_of_pos rfl, List.flatten_cons]
        cases l with
        | nil =>
          obtain ⟨rfl, rfl⟩ := eq_nil_of_lines hls
          exact ⟨⟨by simp, .inl rfl, trivial⟩, rfl⟩
        | cons d l =>
          rw [List.filter_cons_of_pos rfl, List.flatten_cons] at ih
          obtain ⟨⟨-, hlast, hcut⟩, hflatten⟩ := ih
          refine ⟨⟨by simp, ?_, hcut⟩, by rw [← hflatten]; rfl⟩
          rwa [List.getLast?_cons_cons]

/-- The last character of a part of a text tells whether what follows matters. -/
lemma endsLine_append {a b : Text} (ha : a ≠ []) (h : b = [] ∨ a.getLast? = some '\n') :
    endsLine (a ++ b) = endsLine a := by
  rcases h with rfl | h
  · rw [List.append_nil]
  · match a, ha with
    | [c], _ =>
      obtain rfl : c = '\n' := by simpa using h
      rfl
    | c :: d :: a, _ =>
      -- two characters decide
      have hdecide : ∀ x, endsLine (c :: d :: x) = (c == '\n' || (c == '\r' && d == '\n')) := by
        intro x
        unfold endsLine
        split <;> simp_all
      rw [List.cons_append, List.cons_append, hdecide, hdecide]

lemma shows_of_cut {text : Text} {offset : Nat} {l : Text} {ls : List Text}
    (hdrop : text.drop offset = (l :: ls).flatten) (hlast : ls = [] ∨ l.getLast? = some '\n') :
    Shows text offset l := by
  intro k hk
  rw [← List.drop_drop, hdrop, List.flatten_cons, List.drop_append_of_le_length (Nat.le_of_lt hk)]
  refine endsLine_append (by simpa using hk) (hlast.imp (fun hls => by rw [hls]; rfl) fun hend => ?_)
  rw [List.getLast?_drop, if_neg (by omega), hend]

lemma run_scanLines {text : Text} {line offset : Nat} {st : State} {ls : List Text}
    {ts : List Token} (hcut : Cut ls) (hdrop : text.drop offset = ls.flatten)
    (hst : st.Sound text line offset) (h : scanLines line offset st ls = .ok ts) :
    ∃ hi hiLine, Token.Run text (st.uncovered offset) (st.uncoveredLine line) hi hiLine ts := by
  induction ls generalizing line offset st ts with
  | nil =>
    rw [scanLines] at h
    split at h
    · cases h
    · cases h
      exact ⟨_, _, Nat.le_refl _, Nat.le_refl _⟩
  | cons l ls ih =>
    obtain ⟨hne, hlast, hcut⟩ := hcut
    rw [scanLines] at h
    obtain ⟨⟨here, st'⟩, hline, h⟩ := Outcome.bind_eq_ok.1 h
    obtain ⟨rest, hrest, h⟩ := Outcome.bind_eq_ok.1 h
    obtain rfl := Outcome.pure_eq_ok.1 h
    obtain ⟨hrun, hsound⟩ := reads_scanLine (shows_of_cut hdrop hlast) hst hline
    have hdrop' : text.drop (offset + l.length) = ls.flatten := by
      rw [← List.drop_drop, hdrop, List.flatten_cons, List.drop_left]
    have hsound' : st'.Sound text (line + 1) (offset + l.length) := by
      intro s hs
      obtain ⟨hvalue, hstop, hle, hbreak⟩ := hsound s hs
      exact ⟨hvalue, hstop, Nat.le_succ_of_le hle, hbreak⟩
    obtain ⟨hi, hiLine, hlater⟩ := ih hcut hdrop' hsound' hrest
    refine ⟨hi, hiLine, hrun.append (hlater.mono (Nat.le_refl _) ?_)⟩
    cases hopen : st'.openString with
    | some s => simp [State.uncoveredLine, hopen]
    | none => simp [State.uncoveredLine, hopen]

end Scan

/-- **The tokens of a text follow one another**, and their lines grow with them. -/
lemma Token.exists_run {text : Text} {ts : List Token} (h : Token.ofText text = .ok ts) :
    ∃ hi hiLine, Token.Run text 0 1 hi hiLine ts := by
  obtain ⟨hcut, hflatten⟩ := Scan.cut_lines text
  have hsound : Scan.State.initial.Sound text 1 0 := nofun
  have hdrop : text.drop 0 = (text.lines.filter fun l => !l.isEmpty).flatten := by
    rw [List.drop_zero, hflatten]
  exact Scan.run_scanLines hcut hdrop hsound h

/-! ### Sources of texts -/

namespace Source

variable {text : Text} {src : Source}

lemma read_of_ofText (h : ofText text = .ok src) : read text = .ok src := by
  obtain ⟨src', hread, h⟩ := Outcome.bind_eq_ok.1 h
  split at h
  · cases h
  · rwa [Outcome.pure_eq_ok.1 h] at hread

lemma read_eq_ok (h : read text = .ok src) :
    src.text = text ∧ src.lines = .ofText text ∧ Token.ofText text = .ok src.tokens.toList := by
  unfold read at h
  split at h
  · cases h
  · split at h
    · cases h
    · obtain ⟨ts, hts, h⟩ := Outcome.bind_eq_ok.1 h
      obtain rfl := Outcome.pure_eq_ok.1 h
      exact ⟨rfl, rfl, hts⟩

lemma ofText_eq_ok (h : ofText text = .ok src) :
    src.text = text ∧ src.lines = .ofText text ∧ Token.ofText text = .ok src.tokens.toList :=
  read_eq_ok (read_of_ofText h)

lemma ordered_of_read (h : read text = .ok src) : src.Ordered := by
  obtain ⟨hi, hiLine, hrun⟩ := Token.exists_run (read_eq_ok h).2.2
  exact ⟨fun t ht => (hrun.of_mem ht).2.1, hrun.pairwise.imp And.left⟩

lemma linesGrow_of_read (h : read text = .ok src) : src.LinesGrow := by
  obtain ⟨hi, hiLine, hrun⟩ := Token.exists_run (read_eq_ok h).2.2
  exact ⟨fun t ht => (hrun.of_mem ht).2.2.2.1, hrun.pairwise.imp And.right⟩

lemma breakFree_of_read (h : read text = .ok src) : src.BreakFree := by
  obtain ⟨htext, -, hts⟩ := read_eq_ok h
  obtain ⟨hi, hiLine, hrun⟩ := Token.exists_run hts
  intro t ht
  rw [htext]
  exact (hrun.of_mem ht).2.2.2.2

end Source

end KeyOrder
