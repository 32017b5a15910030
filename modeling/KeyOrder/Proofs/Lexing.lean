import KeyOrder.Source
import KeyOrder.Proofs.CommentText

/-!
# How a text is cut into lexemes

A text is passed over from its start to its end: white space, continued lines and comments are left
out, and words are kept with the places where they start and end.  Line ends and changes of
indentation are empty lexemes between them.  Whatever cuts a text does so in these steps, so facts
about lexemes are proved of the steps and not of the functions that choose them.
-/

namespace KeyOrder

namespace Cursor

/-- Passing over characters drops them and moves the place along them. -/
lemma skip_eq (n : Nat) (cur : Cursor) :
    cur.skip n = ⟨cur.rest.drop n, (cur.rest.take n).foldl after cur.place⟩ := by
  induction n generalizing cur with
  | zero => rfl
  | succ n ih =>
    obtain ⟨rest, place⟩ := cur
    cases rest with
    | nil => rfl
    | cons c cs => exact ih ⟨cs, after place c⟩

@[simp] lemma skip_rest (n : Nat) (cur : Cursor) : (cur.skip n).rest = cur.rest.drop n := by
  rw [skip_eq]

@[simp] lemma skip_place (n : Nat) (cur : Cursor) :
    (cur.skip n).place = (cur.rest.take n).foldl after cur.place := by
  rw [skip_eq]

lemma skipWhile_rest (p : Char → Bool) (cur : Cursor) :
    (cur.skipWhile p).rest = cur.rest.dropWhile p := by
  rw [skipWhile, skip_rest]
  induction cur.rest with
  | nil => rfl
  | cons c cs ih =>
    by_cases hc : p c = true
    · rw [List.takeWhile_cons_of_pos hc, List.dropWhile_cons_of_pos hc, List.length_cons,
        List.drop_succ_cons, ih]
    · rw [List.takeWhile_cons_of_neg hc, List.dropWhile_cons_of_neg hc]
      rfl

/-- A line ends with a line break or with the text. -/
lemma rest_line (cur : Cursor) : (cur.skipWhile (· != '\n')).rest = [] ∨
    ∃ cs, (cur.skipWhile (· != '\n')).rest = '\n' :: cs := by
  rw [skipWhile_rest]
  induction cur.rest with
  | nil => exact .inl rfl
  | cons c cs ih =>
    by_cases hc : c = '\n'
    · exact .inr ⟨cs, by rw [hc]; rfl⟩
    · rwa [List.dropWhile_cons_of_pos (by simpa using hc)]

end Cursor

namespace Lexeme

open Text (isWhite)

/-- Whether lexemes of a kind are empty. -/
def isMark (k : LexemeKind) : Bool :=
  k == .newline || k == .indent || k == .dedent || k == .stop

/-- The lexemes that are cut from a cursor to the end of its text. -/
inductive Cuts : Cursor → List Lexeme → Prop
  /-- The text ends. -/
  | done (p : Place) : Cuts ⟨[], p⟩ []
  /-- White space is left out. -/
  | white {c : Char} {cs : Text} {p : Place} {ls : List Lexeme} (hc : isWhite c = true)
      (h : Cuts ⟨cs, Cursor.after p c⟩ ls) : Cuts ⟨c :: cs, p⟩ ls
  /-- A line break after a backslash is left out with it. -/
  | continued {cs : Text} {p : Place} {ls : List Lexeme}
      (h : Cuts ((⟨'\\' :: '\n' :: cs, p⟩ : Cursor).skip 2) ls) : Cuts ⟨'\\' :: '\n' :: cs, p⟩ ls
  /-- A comment is left out. -/
  | comment {cs : Text} {p : Place} {ls : List Lexeme}
      (h : Cuts ((⟨'#' :: cs, p⟩ : Cursor).skipWhile (· != '\n')) ls) : Cuts ⟨'#' :: cs, p⟩ ls
  /-- A line end or a change of indentation takes no characters. -/
  | mark {k : LexemeKind} {cur : Cursor} {ls : List Lexeme} (hk : isMark k = true)
      (h : Cuts cur ls) : Cuts cur (⟨k, "", (cur.place, cur.place)⟩ :: ls)
  /-- A word. -/
  | word {k : LexemeKind} {n : Nat} {cur : Cursor} {ls : List Lexeme}
      (hword : word? cur.rest = some (k, n)) (h : Cuts (cur.skip n) ls) :
      Cuts cur (⟨k, String.ofList (cur.rest.take n), (cur.place, (cur.skip n).place)⟩ :: ls)

namespace Cuts

variable {cur : Cursor} {ls : List Lexeme}

lemma of_empty (hrest : cur.rest = []) : Cuts cur [] := by
  obtain ⟨rest, p⟩ := cur
  obtain rfl : rest = [] := hrest
  exact .done p

/-- One character of white space. -/
lemma skip_one {c : Char} {cs : Text} (hrest : cur.rest = c :: cs) (hc : isWhite c = true)
    (h : Cuts (cur.skip 1) ls) : Cuts cur ls := by
  obtain ⟨rest, p⟩ := cur
  obtain rfl : rest = c :: cs := hrest
  exact .white hc h

/-- A line break, or the end of the text in its place. -/
lemma skip_break (hrest : cur.rest = [] ∨ ∃ cs, cur.rest = '\n' :: cs)
    (h : Cuts (cur.skip 1) ls) : Cuts cur ls := by
  rcases hrest with hrest | ⟨cs, hrest⟩
  · obtain ⟨rest, p⟩ := cur
    obtain rfl : rest = [] := hrest
    exact h
  · exact skip_one hrest rfl h

lemma skip_continued {cs : Text} (hrest : cur.rest = '\\' :: '\n' :: cs)
    (h : Cuts (cur.skip 2) ls) : Cuts cur ls := by
  obtain ⟨rest, p⟩ := cur
  obtain rfl : rest = '\\' :: '\n' :: cs := hrest
  exact .continued h

lemma skip_comment {cs : Text} (hrest : cur.rest = '#' :: cs)
    (h : Cuts (cur.skipWhile (· != '\n')) ls) : Cuts cur ls := by
  obtain ⟨rest, p⟩ := cur
  obtain rfl : rest = '#' :: cs := hrest
  exact .comment h

/-- The white space at the start of a text. -/
lemma skip_white {p : Char → Bool} (hp : ∀ c, p c = true → isWhite c = true)
    (h : Cuts (cur.skipWhile p) ls) : Cuts cur ls := by
  obtain ⟨rest, place⟩ := cur
  induction rest generalizing place with
  | nil => exact h
  | cons c cs ih =>
    by_cases hc : p c = true
    · rw [Cursor.skipWhile, List.takeWhile_cons_of_pos hc, List.length_cons] at h
      exact .white (hp c hc) (ih (Cursor.after place c) h)
    · rw [Cursor.skipWhile, List.takeWhile_cons_of_neg hc] at h
      exact h

/-- Line ends and changes of indentation at one place. -/
lemma marks {ks : List LexemeKind} (hks : ∀ k ∈ ks, isMark k = true) (h : Cuts cur ls) :
    Cuts cur (ks.map (fun k => ⟨k, "", (cur.place, cur.place)⟩) ++ ls) := by
  induction ks with
  | nil => exact h
  | cons k ks ih =>
    obtain ⟨hk, hks⟩ := List.forall_mem_cons.1 hks
    exact .mark hk (ih hks)

end Cuts

/-! ### Margins -/

/-- The blanks and continuations at the start of a line are left out. -/
lemma cuts_of_margin {fuel : Nat} {m m' : Margin} {ls : List Lexeme}
    (h : margin fuel m = some m') (hcuts : Cuts m'.cursor ls) : Cuts m.cursor ls := by
  induction fuel generalizing m with
  | zero => cases h
  | succ fuel ih =>
    rw [margin] at h
    split at h
    · rename_i cs hrest
      exact .skip_one hrest rfl (ih h)
    · rename_i cs hrest
      exact .skip_one hrest rfl (ih h)
    · rename_i cs hrest
      exact .skip_one hrest rfl (ih h)
    · rename_i cs hrest
      split at h
      · cases h
      · exact .skip_continued hrest (ih h)
    · cases h
    · cases h
      exact hcuts

/-! ### Indentation and brackets -/

/-- What a change of indentation adds. -/
def State.Adds (st st' : State) (place : Place) : Prop :=
  ∃ ks : List LexemeKind, (∀ k ∈ ks, isMark k = true) ∧
    st'.lexemes.toList = st.lexemes.toList ++ ks.map fun k => ⟨k, "", (place, place)⟩

namespace State

variable {st st' : State} {place : Place}

lemma adds_of_eq (h : st'.lexemes = st.lexemes) : st.Adds st' place :=
  ⟨[], nofun, by rw [h, List.map_nil, List.append_nil]⟩

/-- One line end or change of indentation. -/
lemma adds_push {k : LexemeKind} (hk : isMark k = true) :
    st.Adds (st.push k "" place place) place :=
  ⟨[k], by simpa using hk, by simp [push]⟩

lemma Adds.trans {st'' : State} (h : st.Adds st' place) (h' : st'.Adds st'' place) :
    st.Adds st'' place := by
  obtain ⟨ks, hks, hst'⟩ := h
  obtain ⟨ks', hks', hst''⟩ := h'
  refine ⟨ks ++ ks', List.forall_mem_append.2 ⟨hks, hks'⟩, ?_⟩
  rw [hst'', hst', List.map_append, List.append_assoc]

lemma adds_of_dedent {column alternative : Nat}
    (h : st.dedent column alternative place = some st') : st.Adds st' place := by
  have hfold : ∀ (closed : List (Nat × Nat)) (st : State),
      st.Adds (closed.foldl (fun st _ => st.push .dedent "" place place) st) place := by
    intro closed
    induction closed with
    | nil => exact fun st => adds_of_eq rfl
    | cons b closed ih => exact fun st => (adds_push rfl).trans (ih _)
  unfold dedent at h
  dsimp only at h
  split at h
  · split at h
    · cases h
      exact (adds_of_eq rfl).trans (hfold _ _)
    · cases h
  · cases h

lemma adds_of_indent {column alternative : Nat}
    (h : st.indent column alternative place = some st') : st.Adds st' place := by
  unfold indent at h
  split at h
  · cases h
  · split at h
    · split at h
      · cases h
        exact adds_of_eq rfl
      · cases h
    · split at h
      · split at h
        · cases h
        · cases h
          exact (adds_of_eq rfl).trans (adds_push rfl)
      · exact adds_of_dedent h

lemma lexemes_of_bracket {text : Text} (h : st.bracket text = some st') :
    st'.lexemes = st.lexemes := by
  unfold bracket at h
  split at h
  · split at h
    · split at h
      · cases h
      · cases h
        rfl
    · split at h
      · split at h
        · split at h
          · cases h
            rfl
          · cases h
        · cases h
      · cases h
        rfl
  · cases h
    rfl

end State

/-! ### The whole text -/

/-- What is cut from a cursor on is added to the lexemes so far. -/
def State.Extends (st st' : State) (cur : Cursor) : Prop :=
  ∃ ls, st'.lexemes.toList = st.lexemes.toList ++ ls ∧ Cuts cur ls

namespace State.Extends

variable {st st₁ st' : State} {cur cur' : Cursor}

/-- Characters that are left out before the rest is cut. -/
lemma skip (h : st.Extends st' cur') (hcuts : ∀ ls, Cuts cur' ls → Cuts cur ls) :
    st.Extends st' cur := by
  obtain ⟨ls, hst, hls⟩ := h
  exact ⟨ls, hst, hcuts ls hls⟩

/-- Line ends and changes of indentation before the rest is cut. -/
lemma marks (hadds : st.Adds st₁ cur.place) (h : st₁.Extends st' cur) : st.Extends st' cur := by
  obtain ⟨ks, hks, hst₁⟩ := hadds
  obtain ⟨ls, hst, hls⟩ := h
  exact ⟨_, by rw [hst, hst₁, List.append_assoc], .marks hks hls⟩

/-- A word before the rest is cut. -/
lemma word {k : LexemeKind} {n : Nat} (hword : word? cur.rest = some (k, n))
    (hst : st₁.lexemes = st.lexemes)
    (h : (st₁.push k (String.ofList (cur.rest.take n)) cur.place (cur.skip n).place).Extends st'
      (cur.skip n)) : st.Extends st' cur := by
  obtain ⟨ls, hst', hls⟩ := h
  refine ⟨_, ?_, .word hword hls⟩
  rw [hst', push, Array.toList_push, hst, List.append_assoc]
  rfl

end State.Extends

/-- The blanks and a comment at the start of a text are left out. -/
private lemma cuts_of_gap {cur blank gap : Cursor} {ls : List Lexeme}
    (hblank : cur.skipWhile (fun c => c == ' ' || c == '\t' || c == '\x0c') = blank)
    (hgap : (if blank.rest.head? = some '#' then blank.skipWhile (· != '\n') else blank) = gap)
    (h : Cuts gap ls) : Cuts cur ls := by
  have hwhite : ∀ c, (c == ' ' || c == '\t' || c == '\x0c') = true → isWhite c = true := by
    intro c hc
    rw [isWhite, Scan.isBlank, hc, Bool.true_or]
  refine .skip_white hwhite ?_
  rw [hblank]
  split at hgap
  · rename_i hhead
    obtain ⟨cs, hrest⟩ := List.head?_eq_some_iff.1 hhead
    exact .skip_comment hrest (hgap ▸ h)
  · exact hgap ▸ h

/-- **A text is cut in steps**, from any cursor on. -/
lemma extends_of_cutFrom {fuel : Nat} {fresh : Bool} {st st' : State} {cur : Cursor}
    (h : cutFrom fuel fresh st cur = some st') : st.Extends st' cur := by
  induction fuel generalizing fresh st cur with
  | zero => cases h
  | succ fuel ih =>
    cases fresh with
    | true =>
      rw [cutFrom] at h
      obtain ⟨m, hm, h⟩ := Option.bind_eq_some_iff.1 h
      suffices hextends : st.Extends st' m.cursor from
        hextends.skip fun ls => cuts_of_margin hm
      dsimp only at h
      split at h
      · -- the end of the text
        rename_i hrest
        split at h
        · obtain ⟨st₁, hindent, h⟩ := Option.bind_eq_some_iff.1 h
          cases h
          refine .marks (State.adds_of_indent hindent) ?_
          exact .marks (State.adds_push (k := .stop) rfl) ⟨[], by simp, .of_empty hrest⟩
        · cases h
      · rename_i cs hrest
        exact (ih h).skip fun ls => .skip_break (.inr ⟨cs, hrest⟩)
      · -- a comment with the line break after it
        rename_i cs hrest
        exact (ih h).skip fun ls hls => .skip_comment hrest (.skip_break m.cursor.rest_line hls)
      · split at h
        · obtain ⟨st₁, hindent, h⟩ := Option.bind_eq_some_iff.1 h
          exact .marks (State.adds_of_indent hindent) (ih h)
        · exact ih h
    | false =>
      rw [cutFrom] at h
      dsimp only at h
      generalize hblank : cur.skipWhile (fun c => c == ' ' || c == '\t' || c == '\x0c') = blank at h
      generalize hgap : (if blank.rest.head? = some '#' then blank.skipWhile (· != '\n')
        else blank) = gap at h
      suffices hextends : st.Extends st' gap from hextends.skip fun ls => cuts_of_gap hblank hgap
      split at h
      · cases h
      · rename_i cs hrest
        split at h
        · refine .marks (State.adds_push (k := .newline) rfl) ?_
          exact (ih h).skip fun ls => .skip_break (.inr ⟨cs, hrest⟩)
        · exact (ih h).skip fun ls => .skip_break (.inr ⟨cs, hrest⟩)
      · rename_i cs hrest
        split at h
        · cases h
        · exact (ih h).skip fun ls => .skip_continued hrest
      · obtain ⟨⟨k, n⟩, hword, h⟩ := Option.bind_eq_some_iff.1 h
        dsimp only at h
        split at h
        · obtain ⟨st₁, hbracket, h⟩ := Option.bind_eq_some_iff.1 h
          exact .word hword (State.lexemes_of_bracket hbracket) (ih h)
        · exact .word hword rfl (ih h)

/-- **The lexemes of a text are cut from it.** -/
lemma cuts_of_cut {text : Text} {place : Place} {ls : Array Lexeme}
    (h : cut text place = some ls) : Cuts ⟨text, place⟩ ls.toList := by
  obtain ⟨st, hst, rfl⟩ := Option.map_eq_some_iff.1 h
  obtain ⟨ls, hls, hcuts⟩ := extends_of_cutFrom hst
  rw [hls]
  exact hcuts

end Lexeme

/-! ### Programs -/

/-- A program is cut into lexemes, which the grammar reads. -/
lemma Node.ofText?_eq_some {text : Text} {n : Node} (h : Node.ofText? text = some n) :
    ∃ ls j, Lexeme.cut (Lexeme.normalize text) ⟨1, 0⟩ = some ls ∧
      Grammar.program (Grammar.rules (3 * text.length + 10)) ls 0 = some (n, j) := by
  obtain ⟨ls, hls, h⟩ := Option.bind_eq_some_iff.1 h
  obtain ⟨⟨n, j⟩, hn, h⟩ := Option.bind_eq_some_iff.1 h
  cases h
  exact ⟨ls, j, hls, hn⟩

/-- The tree of a source is the tree of its text. -/
lemma Source.tree_of_read {text : Text} {src : Source} (h : Source.read text = .ok src) :
    Node.ofText? text = some src.tree := by
  unfold read at h
  split at h
  · cases h
  · split at h
    · cases h
    · rename_i tree htree
      cases hts : Token.ofText text with
      | error f =>
        rw [hts] at h
        cases h
      | ok ts =>
        rw [hts] at h
        cases h
        exact htree

end KeyOrder
