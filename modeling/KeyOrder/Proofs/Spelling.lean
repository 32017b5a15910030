import KeyOrder.Proofs.CommentText
import KeyOrder.Proofs.Places
import KeyOrder.Proofs.Scanning

/-!
# Tokens spell out the text

A text without a lone `\r` is spelled out by its tokens: each one stands where its range says, a
comment is a `#` with the rest of its line, and between the tokens there are only blanks, line
breaks and the backslashes of continued lines.  What is known between two lines is the part that is
spelled out already; an open string is the rest.
-/

namespace KeyOrder

namespace Text

/-- Whether a character can stand outside of all tokens. -/
def isLoose (c : Char) : Bool := isWhite c || c == '\\'

/-- A text of characters that can stand outside of all tokens. -/
def Loose (text : Text) : Prop := ∀ c ∈ text, isLoose c = true

lemma loose_nil : Loose [] := fun _ hc => absurd hc List.not_mem_nil

lemma Loose.append {a b : Text} (ha : Loose a) (hb : Loose b) : Loose (a ++ b) :=
  List.forall_mem_append.2 ⟨ha, hb⟩

lemma isLoose_of_isBlank {c : Char} (h : Scan.isBlank c = true) : isLoose c = true := by
  simp [isLoose, isWhite, h]

lemma isLoose_of_isBreak {c : Char} (h : isBreak c = true) : isLoose c = true := by
  simp [isLoose, isWhite, h]

/-- A comment: a `#` and what follows it on its line. -/
def IsComment (text : Text) : Prop :=
  ∃ body, text = '#' :: body ∧ ∀ c ∈ body, isBreak c = false

/-- A line in which nothing follows a break but breaks. -/
def Tidy (line : Text) : Prop := line.Pairwise fun a b => isBreak a = true → isBreak b = true

lemma Tidy.drop {line : Text} (h : Tidy line) (n : Nat) : Tidy (line.drop n) :=
  List.Pairwise.sublist (List.drop_sublist _ _) h

lemma Tidy.loose {c : Char} {cs : Text} (h : Tidy (c :: cs)) (hc : isBreak c = true) :
    Loose (c :: cs) := by
  refine List.forall_mem_cons.2 ⟨isLoose_of_isBreak hc, fun d hd => isLoose_of_isBreak ?_⟩
  exact (List.pairwise_cons.1 h).1 d hd hc

/-- The lines of a text without a lone `\r` are tidy. -/
lemma tidy_of_mem_lines {text line : Text} (hpaired : text.paired = true)
    (hline : line ∈ text.lines) : Tidy line := by
  induction text generalizing line with
  | nil =>
    rw [List.mem_singleton.1 hline]
    exact .nil
  | cons c cs ih =>
    simp only [paired, Bool.and_eq_true, Bool.or_eq_true, bne_iff_ne, beq_iff_eq] at hpaired
    rw [Text.lines] at hline
    split at hline
    · rcases List.mem_cons.1 hline with rfl | hline
      · exact List.pairwise_singleton ..
      · exact ih hpaired.2 hline
    · rename_i hc
      cases hls : Text.lines cs with
      | nil => exact absurd hls (lines_ne_nil cs)
      | cons l ls =>
        rw [hls] at hline ih
        rcases List.mem_cons.1 hline with rfl | hline
        · refine .cons (fun d hd hbreak => ?_) (ih hpaired.2 (List.mem_cons_self ..))
          -- a carriage return is followed by the end of the line
          have hr : c = '\r' := by simpa [isBreak, hc] using hbreak
          have hhead := hpaired.1.resolve_left fun hne => hne hr
          obtain ⟨rest, rfl⟩ := List.head?_eq_some_iff.1 hhead
          rw [Text.lines, if_pos rfl] at hls
          cases hls
          rw [List.mem_singleton.1 hd]
          rfl
        · exact ih hpaired.2 (List.mem_cons_of_mem _ hline)

end Text

/-- Tokens spell out a part of a text that starts at the offset `lo`. -/
def Token.Spell (lo : Nat) (part : Text) : List Token → Prop
  | [] => part.Loose
  | t :: ts => ∃ gap rest, part = gap ++ t.value ++ rest ∧ gap.Loose ∧
      t.range = ⟨lo + gap.length, lo + gap.length + t.value.length⟩ ∧
      (t.isComment = true → t.value.IsComment) ∧ Spell t.range.stop rest ts

namespace Token.Spell

variable {lo : Nat} {part : Text} {ts us : List Token}

/-- Loose characters before the part. -/
lemma skip {gap : Text} (hgap : gap.Loose) (h : Spell (lo + gap.length) part ts) :
    Spell lo (gap ++ part) ts := by
  cases ts with
  | nil => exact hgap.append h
  | cons t ts =>
    obtain ⟨gap', rest, rfl, hgap', hrange, hrest⟩ := h
    refine ⟨gap ++ gap', rest, by simp only [List.append_assoc], hgap.append hgap', ?_, hrest⟩
    rw [hrange, List.length_append, Nat.add_assoc lo]

lemma append {part' : Text} (h : Spell lo part ts) (h' : Spell (lo + part.length) part' us) :
    Spell lo (part ++ part') (ts ++ us) := by
  induction ts generalizing lo part with
  | nil => exact skip h h'
  | cons t ts ih =>
    obtain ⟨gap, rest, rfl, hgap, hrange, hcomment, hrest⟩ := h
    refine ⟨gap, rest ++ part', by simp only [List.append_assoc], hgap, hrange, hcomment,
      ih hrest ?_⟩
    rw [hrange]
    simpa only [List.length_append, ← Nat.add_assoc] using h'

end Token.Spell

/-! ### What stands at the start of a text -/

namespace Shape

open Text (isBreak Loose IsComment)

/-- What a head says about the text that it starts: a comment is one, and nothing but loose
characters is passed over. -/
def Head.Fits (cs : Text) : Head → Prop
  | nothing => cs = []
  | continuation n => Loose (cs.take n)
  | lineBreak n => Loose (cs.take n)
  | token kind n => kind = .comment → IsComment (cs.take n)
  | openString _ => True

lemma fits_of_string? {cs : Text} {r : Head} (h : string? cs = some r) : r.Fits cs := by
  unfold string? at h
  obtain ⟨⟨m, d⟩, -, h⟩ := Option.bind_eq_some_iff.1 h
  simp only at h
  split at h
  · split at h
    · cases h
      exact nofun
    · cases h
      trivial
  · obtain ⟨line, -, h⟩ := Option.map_eq_some_iff.1 h
    cases line with
    | closed n =>
      cases h
      exact nofun
    | continued =>
      cases h
      trivial

lemma fits_of_word? {cs : Text} {r : Head} (h : word? cs = some r) : r.Fits cs := by
  unfold word? at h
  simp only at h
  split at h
  · cases h
  · cases h
    intro hkind
    split at hkind <;> cases hkind

lemma fits_of_head? {cs : Text} {r : Head} (h : head? cs = some r) : r.Fits cs := by
  unfold head? at h
  split at h
  · cases h
    rfl
  · cases h
    simp [Head.Fits, Loose, Text.isLoose, Text.isWhite, isBreak]
  · cases h
    simp [Head.Fits, Loose, Text.isLoose, Text.isWhite, isBreak]
  · cases h
    simp [Head.Fits, Loose, Text.isLoose, Text.isWhite, isBreak]
  · cases h
    simp [Head.Fits, Loose, Text.isLoose, Text.isWhite, isBreak]
  · rename_i rest
    cases h
    intro _
    refine ⟨rest.takeWhile fun c => c != '\r' && c != '\n', ?_, fun c hc => ?_⟩
    · rw [Nat.add_comm, List.take_succ_cons, List.prefix_iff_eq_take.1 (List.takeWhile_prefix _)]
      simp
    · have hc' := List.mem_takeWhile_imp hc
      simp only [Bool.and_eq_true, bne_iff_ne] at hc'
      simp [isBreak, hc'.1, hc'.2]
  · split at h
    · cases h
      exact nofun
    · split at h
      · cases h
        exact nofun
      · split at h
        · cases h
          exact fits_of_string? ‹_›
        · exact fits_of_word? h

end Shape

/-! ### Reading a line -/

namespace Scan

open Text (isBreak Loose IsComment Tidy)

/-- What of an open string is read. -/
def State.pending (st : State) : Text := (st.openString.map OpenString.value).getD []

/-- What a part of a text gives: tokens that spell out its first characters, and an open string with
the others. -/
def Covers (lo : Nat) (part : Text) (r : List Token × State) : Prop :=
  ∃ front, part = front ++ r.2.pending ∧ Token.Spell lo front r.1 ∧
    ∀ s, r.2.openString = some s → s.start = lo + front.length

namespace Covers

variable {lo : Nat} {part : Text} {r : List Token × State}

lemma skip {gap : Text} (hgap : gap.Loose) (h : Covers (lo + gap.length) part r) :
    Covers lo (gap ++ part) r := by
  obtain ⟨front, rfl, hspell, hstart⟩ := h
  refine ⟨gap ++ front, by rw [List.append_assoc], hspell.skip hgap, fun s hs => ?_⟩
  rw [hstart s hs, List.length_append, Nat.add_assoc]

/-- A token before others. -/
lemma cons (gap : Text) {t : Token} (hgap : gap.Loose)
    (hrange : t.range = ⟨lo + gap.length, lo + gap.length + t.value.length⟩)
    (hcomment : t.isComment = true → t.value.IsComment) (h : Covers t.range.stop part r) :
    Covers lo (gap ++ t.value ++ part) (t :: r.1, r.2) := by
  obtain ⟨front, rfl, hspell, hstart⟩ := h
  refine ⟨gap ++ t.value ++ front, by simp only [List.append_assoc],
    ⟨gap, front, rfl, hgap, hrange, hcomment, hspell⟩, fun s hs => ?_⟩
  rw [hstart s hs, hrange, List.length_append, List.length_append]
  simp only
  omega

/-- Nothing more is read. -/
lemma nil {st : State} (hst : st.openString = none) (hpart : part.Loose) :
    Covers lo part ([], st) := by
  refine ⟨part, by simp [State.pending, hst], hpart, fun s hs => ?_⟩
  rw [hst] at hs
  cases hs

end Covers

lemma loose_blanks (cs : Text) : Loose (cs.take (cs.takeWhile isBlank).length) := by
  rw [← List.prefix_iff_eq_take.1 (List.takeWhile_prefix _)]
  exact fun c hc => Text.isLoose_of_isBlank (List.mem_takeWhile_imp hc)

/-- Where fewer characters are left than are passed over, nothing is read. -/
lemma covers_scanRest_drop {line lo n : Nat} {st : State} {part : Text}
    (hst : st.openString = none)
    (h : Covers (lo + n) (part.drop n) (scanRest line (lo + n) st (part.drop n))) :
    Covers (lo + (part.take n).length) (part.drop n) (scanRest line (lo + n) st (part.drop n)) := by
  by_cases hle : n ≤ part.length
  · rwa [List.length_take_of_le hle]
  · rw [List.drop_eq_nil_of_le (by omega), scanRest]
    exact .nil hst Text.loose_nil

/-- Characters that are passed over, after blanks, are loose. -/
lemma covers_passed {line offset blanks n : Nat} {st : State} {c : Char} {cs : Text} (hn : 0 < n)
    (hst : st.openString = none) (hblanks : Loose ((c :: cs).take blanks))
    (hloose : Loose (((c :: cs).drop blanks).take n))
    (h : Covers (offset + blanks + n) (cs.drop (blanks + n - 1))
      (scanRest line (offset + blanks + n) st (cs.drop (blanks + n - 1)))) :
    Covers offset (c :: cs)
      (scanRest line (offset + blanks + n) st (cs.drop (blanks + n - 1))) := by
  have hdrop : cs.drop (blanks + n - 1) = (c :: cs).drop (blanks + n) := by
    rw [← List.drop_succ_cons (a := c), Nat.sub_add_cancel (by omega)]
  rw [hdrop, Nat.add_assoc] at h ⊢
  have hpassed : Loose ((c :: cs).take (blanks + n)) := by
    rw [List.take_add]
    exact hblanks.append hloose
  have hcovers := (covers_scanRest_drop hst h).skip hpassed
  rwa [List.take_append_drop] at hcovers

/-- The rest of a line is spelled out. -/
lemma covers_scanRest {line offset : Nat} {st : State} {rest : Text} (hst : st.openString = none) :
    Covers offset rest (scanRest line offset st rest) := by
  fun_induction scanRest line offset st rest with
  | case1 offset st => exact .nil hst Text.loose_nil
  | case2 offset st c cs blanks body hhead ts st' hrec ih =>
    have hcovers := ih hst
    rw [hrec] at hcovers
    exact Covers.cons [] (t := .make .error [c] offset line line) Text.loose_nil rfl
      (fun hcomment => absurd hcomment Bool.false_ne_true) hcovers
  | case3 offset st c cs blanks body hhead =>
    have hbody : body = [] := Shape.fits_of_head? hhead
    have hloose := loose_blanks (c :: cs)
    rw [List.take_of_length_le (List.drop_eq_nil_iff.1 hbody)] at hloose
    exact .nil hst hloose
  | case4 offset st c cs blanks body n hhead ih =>
    exact covers_passed (Shape.positive_of_head? hhead) hst (loose_blanks _)
      (Shape.fits_of_head? hhead) (ih hst)
  | case5 offset st c cs blanks body n hhead ih =>
    exact covers_passed (Shape.positive_of_head? hhead) hst (loose_blanks _)
      (Shape.fits_of_head? hhead) (ih hst)
  | case6 offset st c cs blanks body kind n hhead value st' ts st'' hrec ih =>
    have hn : 0 < n := Shape.positive_of_head? hhead
    have hdrop : cs.drop (blanks + n - 1) = body.drop n := by
      rw [← List.drop_succ_cons (a := c), Nat.sub_add_cancel (by omega), ← List.drop_drop]
    have hcovers := ih hst
    rw [hdrop] at hcovers hrec
    have hst' : st'.openString = none := hst
    have hlater := covers_scanRest_drop hst' hcovers
    rw [hrec] at hlater
    have hblanks : ((c :: cs).take blanks).length = blanks :=
      List.length_take_of_le (List.takeWhile_prefix _).length_le
    have hwhole : c :: cs = (c :: cs).take blanks ++ value ++ body.drop n := by
      rw [List.append_assoc, List.take_append_drop, List.take_append_drop]
    rw [hwhole]
    refine Covers.cons _ (t := .make kind value (offset + blanks) line line) (loose_blanks _) ?_ ?_
      hlater
    · rw [hblanks]
      rfl
    · intro hcomment
      exact Shape.fits_of_head? hhead (beq_iff_eq.1 hcomment)
  | case7 offset st c cs blanks body d hhead =>
    refine ⟨(c :: cs).take blanks, (List.take_append_drop blanks _).symm, loose_blanks _, ?_⟩
    rintro s ⟨⟩
    rw [List.length_take_of_le (List.takeWhile_prefix _).length_le]

/-! ### Reading all lines -/

/-- A line that goes on with an open string is spelled out from the start of the string. -/
lemma covers_scanString {line offset : Nat} {st : State} {s : OpenString} {l : Text}
    (hstop : s.start + s.value.length = offset) :
    Covers s.start (s.value ++ l) (scanString line offset st s l) := by
  unfold scanString
  split
  · rename_i n _
    -- the string ends in this line
    have hrest : Covers (offset + (l.take n).length) (l.drop n)
        (scanRest line (offset + n) { st with openString := none, strict := false } (l.drop n)) :=
      covers_scanRest_drop rfl (covers_scanRest rfl)
    have hwhole : s.value ++ l = [] ++ (s.value ++ l.take n) ++ l.drop n := by
      rw [List.nil_append, List.append_assoc, List.take_append_drop]
    rw [hwhole]
    refine Covers.cons [] (t := .make .string (s.value ++ l.take n) s.start s.startLine line)
      Text.loose_nil rfl (fun hcomment => absurd hcomment Bool.false_ne_true) ?_
    simpa only [Token.make, List.length_append, ← Nat.add_assoc, hstop] using hrest
  · dsimp only
    split
    · refine ⟨[], rfl, Text.loose_nil, fun s' hs => ?_⟩
      cases hs
      rfl
    · -- an unfinished string is a token of its own
      have hcovers : Covers s.start ([] ++ (s.value ++ l) ++ [])
          ([.make .error (s.value ++ l) s.start s.startLine line],
            { st with openString := none }) :=
        Covers.cons [] (t := .make .error (s.value ++ l) s.start s.startLine line)
          (r := ([], { st with openString := none })) Text.loose_nil rfl
          (fun hcomment => absurd hcomment Bool.false_ne_true) (.nil rfl Text.loose_nil)
      rwa [List.nil_append, List.append_nil] at hcovers

lemma loose_indentation (column : Nat) (cs : Text) :
    Loose (cs.take (indentation column cs).1) := by
  fun_induction indentation column cs with
  | case1 column cs n k h ih =>
    rw [h] at ih
    exact List.forall_mem_cons.2 ⟨rfl, ih⟩
  | case2 column cs n k h ih =>
    rw [h] at ih
    exact List.forall_mem_cons.2 ⟨rfl, ih⟩
  | case3 column cs n k h ih =>
    rw [h] at ih
    exact List.forall_mem_cons.2 ⟨rfl, ih⟩
  | case4 column cs => exact nofun

/-- Without the breaks at its end a tidy line has no breaks. -/
lemma isBreak_of_mem_stripBreak {l : Text} (h : Tidy l) {c : Char} (hc : c ∈ stripBreak l) :
    isBreak c = false := by
  have hstrip : stripBreak l = l.rdropWhile isBreak := rfl
  have htidy : Tidy (stripBreak l) := h.sublist (List.rdropWhile_prefix _ _).sublist
  have hne : l.rdropWhile isBreak ≠ [] := hstrip ▸ List.ne_nil_of_mem hc
  have hlast := List.rdropWhile_last_not isBreak l hne
  rw [hstrip] at hc htidy
  rw [← List.dropLast_append_getLast hne] at hc htidy
  rcases List.mem_append.1 hc with hc | hc
  · have hpair := (List.pairwise_append.1 htidy).2.2 c hc _ (List.mem_singleton_self _)
    by_contra hbreak
    exact hlast (hpair (Bool.not_eq_false _ ▸ hbreak))
  · rw [List.mem_singleton.1 hc]
    simpa using hlast

/-- A comment of its own line ends before the line breaks. -/
lemma isComment_stripBreak {rest : Text} (h : Tidy ('#' :: rest)) :
    IsComment (stripBreak ('#' :: rest)) := by
  cases hstrip : stripBreak ('#' :: rest) with
  | nil => exact absurd hstrip (stripBreak_ne_nil rest)
  | cons c body =>
    have hprefix : stripBreak ('#' :: rest) <+: '#' :: rest := List.rdropWhile_prefix _ _
    rw [hstrip] at hprefix
    refine ⟨body, by rw [(List.cons_prefix_cons.1 hprefix).1], fun d hd => ?_⟩
    exact isBreak_of_mem_stripBreak h (hstrip ▸ List.mem_cons_of_mem _ hd)

/-- A line that starts a statement is spelled out. -/
lemma covers_scanStatement {line offset : Nat} {st : State} {l : Text} {r : List Token × State}
    (hl : Tidy l) (hst : st.openString = none) (h : scanStatement line offset st l = .ok r) :
    Covers offset l r := by
  have hloose := loose_indentation 0 l
  have hwhole := List.take_append_drop (indentation 0 l).1 l
  have htidy := hl.drop (indentation 0 l).1
  unfold scanStatement at h
  simp only at h
  rw [← hwhole]
  split at h
  · rename_i hdrop
    cases h
    rw [hdrop, List.append_nil]
    exact .nil hst hloose
  · rename_i rest hdrop
    cases h
    have hlength : (l.take (indentation 0 l).1).length = (indentation 0 l).1 := by
      have := congrArg List.length hdrop
      rw [List.length_drop, List.length_cons] at this
      exact List.length_take_of_le (by omega)
    rw [hdrop] at htidy ⊢
    have hend : '#' :: rest = stripBreak ('#' :: rest) ++ ('#' :: rest).rtakeWhile isBreak :=
      List.rdropWhile_append_rtakeWhile.symm
    have hbreaks : Loose (('#' :: rest).rtakeWhile isBreak) := fun c hc =>
      Text.isLoose_of_isBreak (List.mem_rtakeWhile_imp hc)
    have hvalue := isComment_stripBreak htidy
    generalize ('#' :: rest).rtakeWhile isBreak = breaks at hend hbreaks
    generalize stripBreak ('#' :: rest) = value at hend hvalue ⊢
    rw [hend, ← List.append_assoc]
    exact Covers.cons _ (t := .make .comment value (offset + (indentation 0 l).1) line line)
      (r := ([], st)) hloose (by rw [hlength]; rfl) (fun _ => hvalue) (.nil hst hbreaks)
  · rename_i rest hdrop
    cases h
    rw [hdrop] at htidy ⊢
    exact .nil hst (hloose.append (htidy.loose rfl))
  · rename_i rest hdrop
    cases h
    rw [hdrop] at htidy ⊢
    exact .nil hst (hloose.append (htidy.loose rfl))
  · obtain ⟨columns, -, h⟩ := Outcome.bind_eq_ok.1 h
    obtain rfl := Outcome.pure_eq_ok.1 h
    refine Covers.skip hloose (covers_scanRest_drop ?_ (covers_scanRest ?_))
    · exact hst
    · exact hst

/-- A line is spelled out from where the part of the text starts that no token covers. -/
lemma covers_scanLine {line lo offset : Nat} {st : State} {l : Text} {r : List Token × State}
    (hl : Tidy l) (hlo : lo + st.pending.length = offset)
    (hst : ∀ s, st.openString = some s → s.start = lo)
    (h : scanLine line offset st l = .ok r) : Covers lo (st.pending ++ l) r := by
  unfold scanLine at h
  cases hopen : st.openString with
  | some s =>
    have hpending : st.pending = s.value := by simp [State.pending, hopen]
    obtain rfl := hst s hopen
    simp only [hopen] at h
    cases h
    rw [hpending] at hlo ⊢
    exact covers_scanString hlo
  | none =>
    have hpending : st.pending = [] := by simp [State.pending, hopen]
    simp only [hopen] at h
    rw [hpending] at hlo ⊢
    obtain rfl : lo = offset := hlo
    split at h
    · exact covers_scanStatement hl hopen h
    · cases h
      exact covers_scanRest rfl

/-- Lines are spelled out, by induction on them: the open string between two lines is the part that
is left for the next. -/
lemma spell_scanLines {line lo offset : Nat} {st : State} {ls : List Text} {ts : List Token}
    (hls : ∀ l ∈ ls, Tidy l) (hlo : lo + st.pending.length = offset)
    (hst : ∀ s, st.openString = some s → s.start = lo)
    (h : scanLines line offset st ls = .ok ts) : Token.Spell lo (st.pending ++ ls.flatten) ts := by
  induction ls generalizing line lo offset st ts with
  | nil =>
    rw [scanLines] at h
    split at h
    · cases h
    · rename_i hdone
      cases h
      have hopen : st.openString = none := by
        cases hopen : st.openString with
        | none => rfl
        | some s => exact absurd (.inl (by simp [hopen])) hdone
      simp only [State.pending, hopen, Option.map_none, Option.getD_none, List.flatten_nil,
        List.append_nil]
      exact Text.loose_nil
  | cons l ls ih =>
    rw [scanLines] at h
    obtain ⟨⟨here, st'⟩, hline, h⟩ := Outcome.bind_eq_ok.1 h
    obtain ⟨rest, hrest, h⟩ := Outcome.bind_eq_ok.1 h
    obtain rfl := Outcome.pure_eq_ok.1 h
    obtain ⟨hl, hls⟩ := List.forall_mem_cons.1 hls
    obtain ⟨front, hfront, hspell, hstart⟩ := covers_scanLine hl hlo hst hline
    dsimp only at hfront hspell hstart
    have hlength := congrArg List.length hfront
    simp only [List.length_append] at hlength
    have hlo' : lo + front.length + st'.pending.length = offset + l.length := by omega
    have hlater := ih hls hlo' hstart hrest
    rw [List.flatten_cons, ← List.append_assoc, hfront, List.append_assoc]
    exact hspell.append hlater

end Scan

/-- **The tokens of a text without a lone `\r` spell it out.** -/
lemma Token.spell_of_ofText {text : Text} (hpaired : text.paired = true) {ts : List Token}
    (h : Token.ofText text = .ok ts) : Token.Spell 0 text ts := by
  have hlines : ∀ l ∈ text.lines.filter fun l => !l.isEmpty, l.Tidy := fun l hl =>
    Text.tidy_of_mem_lines hpaired (List.mem_filter.1 hl).1
  have hopen : ∀ s, Scan.State.initial.openString = some s → s.start = 0 := nofun
  have hspell : Token.Spell 0 (text.lines.filter fun l => !l.isEmpty).flatten ts :=
    Scan.spell_scanLines hlines rfl hopen h
  rwa [(Scan.cut_lines text).2] at hspell

/-! ### Sources of texts -/

lemma Text.mem_slice {text : Text} {a b : Nat} {c : Char} :
    c ∈ text.slice a b ↔ ∃ o, a ≤ o ∧ o < b ∧ text[o]? = some c := by
  unfold Text.slice
  rw [List.mem_iff_getElem?]
  constructor
  · rintro ⟨i, hi⟩
    rw [List.getElem?_take] at hi
    split at hi
    · rw [List.getElem?_drop] at hi
      exact ⟨a + i, Nat.le_add_right .., by omega, hi⟩
    · cases hi
  · rintro ⟨o, hlo, hhi, ho⟩
    refine ⟨o - a, ?_⟩
    rw [List.getElem?_take_of_lt (by omega), List.getElem?_drop, show a + (o - a) = o by omega, ho]

/-- A source whose tokens spell out its text. -/
structure Source.Legible (src : Source) : Prop where
  value : ∀ t ∈ src.tokens.toList, src.slice t.range = t.value ∧
    t.range.stop = t.range.start + t.value.length
  comment : ∀ t ∈ src.tokens.toList, t.isComment = true → t.value.IsComment
  /-- What stands outside of all tokens. -/
  loose : ∀ o c, src.text[o]? = some c →
    (∀ t ∈ src.tokens.toList, t.range.stop ≤ o ∨ o < t.range.start) → Text.isLoose c = true

namespace Token.Spell

variable {lo : Nat} {part : Text} {ts : List Token}

/-- A token of a text that is spelled out from an offset on stands where its range says. -/
lemma of_mem (h : Spell lo part ts) {pre : Text} (hpre : pre.length = lo) {t : Token}
    (ht : t ∈ ts) :
    ((pre ++ part).slice t.range.start t.range.stop = t.value ∧
      t.range.stop = t.range.start + t.value.length) ∧
      (t.isComment = true → t.value.IsComment) := by
  induction ts generalizing lo part pre with
  | nil => exact absurd ht List.not_mem_nil
  | cons u ts ih =>
    obtain ⟨gap, rest, rfl, -, hrange, hcomment, hrest⟩ := h
    rcases List.mem_cons.1 ht with rfl | ht
    · have hstart : (pre ++ gap).length = t.range.start := by
        rw [hrange, List.length_append, hpre]
      refine ⟨⟨?_, by rw [hrange]⟩, hcomment⟩
      have hstop : t.range.stop - t.range.start = t.value.length := by
        rw [hrange]
        simp only
        omega
      rw [Text.slice, hstop, List.append_assoc gap, ← List.append_assoc pre,
        List.drop_left' hstart, List.take_left]
    · have hpre' : (pre ++ gap ++ u.value).length = u.range.stop := by
        rw [hrange, List.length_append, List.length_append, hpre]
      have hlater := ih hrest hpre' ht
      simpa only [List.append_assoc] using hlater

/-- Outside of the tokens only loose characters stand. -/
lemma isLoose (h : Spell lo part ts) {pre : Text} (hpre : pre.length = lo) {o : Nat} {c : Char}
    (hc : (pre ++ part)[o]? = some c) (hlo : lo ≤ o)
    (ho : ∀ t ∈ ts, t.range.stop ≤ o ∨ o < t.range.start) : Text.isLoose c = true := by
  induction ts generalizing lo part pre with
  | nil =>
    rw [List.getElem?_append_right (by omega)] at hc
    exact h c (List.mem_of_getElem? hc)
  | cons t ts ih =>
    obtain ⟨gap, rest, rfl, hgap, hrange, -, hrest⟩ := h
    obtain ⟨ht, ho⟩ := List.forall_mem_cons.1 ho
    rcases ht with hstop | hstart
    · -- past the first token
      have hpre' : (pre ++ gap ++ t.value).length = t.range.stop := by
        rw [hrange, List.length_append, List.length_append, hpre]
      refine ih hrest hpre' ?_ hstop ho
      simpa only [List.append_assoc] using hc
    · rw [hrange] at hstart
      simp only at hstart
      rw [List.getElem?_append_right (by omega), List.append_assoc,
        List.getElem?_append_left (by omega)] at hc
      exact hgap c (List.mem_of_getElem? hc)

end Token.Spell

/-- **A text without a lone `\r` is legible.** -/
lemma Source.legible_of_read {text : Text} (hpaired : text.paired = true) {src : Source}
    (h : Source.read text = .ok src) : src.Legible := by
  obtain ⟨htext, -, hts⟩ := Source.read_eq_ok h
  have hspell := Token.spell_of_ofText hpaired hts
  have hnil : ([] : Text).length = 0 := rfl
  refine ⟨fun t ht => ?_, fun t ht => (hspell.of_mem hnil ht).2, fun o c hc ho => ?_⟩
  · have hvalue := (hspell.of_mem hnil ht).1
    rwa [List.nil_append, ← htext] at hvalue
  · rw [htext] at hc
    exact hspell.isLoose hnil hc (Nat.zero_le _) ho

end KeyOrder
