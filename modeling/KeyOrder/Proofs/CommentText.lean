import KeyOrder.Token.Scan
import Mathlib.Data.List.DropRight
import Mathlib.Tactic.Lemma

/-!
# The comments of a text

In a text without code a comment runs from a `#` to the end of its line, whatever the tokens around
it are.  What stands on the first line of such a text and what stands on later lines can be told
from its parts: blanks and line breaks between the parts change a comment only at its end.
-/

namespace KeyOrder

namespace Text

/-! ### White space -/

/-- Whether a character can end a line. -/
def isBreak (c : Char) : Bool := c == '\r' || c == '\n'

/-- Whether a character is a blank or can end a line. -/
def isWhite (c : Char) : Bool := Scan.isBlank c || isBreak c

/-- A text without the white space at its end. -/
def trimmed (text : Text) : Text := text.rdropWhile isWhite

/-- A text of white space. -/
def White (text : Text) : Prop := ∀ c ∈ text, isWhite c = true

lemma white_nil : White [] := nofun

lemma White.append {a b : Text} (ha : White a) (hb : White b) : White (a ++ b) :=
  List.forall_mem_append.2 ⟨ha, hb⟩

lemma white_of_forall_eq {a : Text} (h : ∀ c ∈ a, c = '\n') : White a := by
  intro c hc
  rw [h c hc]
  rfl

lemma White.hash_not_mem {a : Text} (ha : White a) : '#' ∉ a :=
  fun hmem => absurd (ha '#' hmem) (by decide)

/-- White space at the end of a text is trimmed away. -/
lemma trimmed_concat {c : Char} (hc : isWhite c = true) (v : Text) :
    trimmed (v ++ [c]) = trimmed v :=
  List.rdropWhile_concat_pos _ _ _ hc

/-! ### Comments -/

/-- The comments of a text, given the one that is being read, if any. -/
def commentsFrom : Option Text → Text → List Text
  | reading, [] => reading.toList
  | some v, c :: cs =>
    if isBreak c then v :: commentsFrom none cs else commentsFrom (some (v ++ [c])) cs
  | none, c :: cs => commentsFrom (if c = '#' then some ['#'] else none) cs

/-- The comments of a text. -/
def comments (text : Text) : List Text := commentsFrom none text

/-- What stands before the first `#` is in no comment. -/
lemma comments_append_of_hash_not_mem {a : Text} (h : '#' ∉ a) (b : Text) :
    comments (a ++ b) = comments b := by
  unfold comments
  induction a with
  | nil => rfl
  | cons c a ih =>
    rw [List.mem_cons, not_or] at h
    rw [List.cons_append, commentsFrom, if_neg (Ne.symm h.1), ih h.2]

lemma comments_eq_nil_of_hash_not_mem {a : Text} (h : '#' ∉ a) : comments a = [] := by
  have hcomments := comments_append_of_hash_not_mem h []
  rwa [List.append_nil] at hcomments

lemma commentsFrom_append_of_unbroken {body : Text} (h : ∀ c ∈ body, isBreak c = false)
    (v b : Text) :
    commentsFrom (some v) (body ++ b) = commentsFrom (some (v ++ body)) b := by
  induction body generalizing v with
  | nil => rw [List.nil_append, List.append_nil]
  | cons c body ih =>
    obtain ⟨hc, hbody⟩ := List.forall_mem_cons.1 h
    rw [List.cons_append, commentsFrom, if_neg (by simp [hc]), ih hbody, List.append_assoc]
    rfl

/-- A comment is read up to the end of its line. -/
lemma comments_comment {body rest : Text} (hbody : ∀ c ∈ body, isBreak c = false)
    (hrest : ∀ c ∈ rest.head?, isBreak c = true) :
    comments ('#' :: body ++ rest) = ('#' :: body) :: comments rest := by
  have hopen : comments ('#' :: body ++ rest) = commentsFrom (some ['#']) (body ++ rest) := by
    rw [comments, List.cons_append, commentsFrom, if_pos rfl]
  rw [hopen, commentsFrom_append_of_unbroken hbody]
  cases rest with
  | nil => rfl
  | cons c cs =>
    have hc : isBreak c = true := hrest c rfl
    have hhash : c ≠ '#' := by
      rintro rfl
      exact absurd hc (by decide)
    rw [commentsFrom, if_pos hc, comments, commentsFrom, if_neg hhash]
    rfl

lemma commentsFrom_white {w : Text} (hw : White w) (reading : Option Text) :
    (commentsFrom reading w).map trimmed = reading.toList.map trimmed := by
  induction w generalizing reading with
  | nil => cases reading <;> rfl
  | cons c w ih =>
    obtain ⟨hc, hw⟩ := List.forall_mem_cons.1 hw
    cases reading with
    | none =>
      have hhash : c ≠ '#' := by
        rintro rfl
        exact absurd hc (by decide)
      rw [commentsFrom, if_neg hhash, ih hw]
    | some v =>
      rw [commentsFrom]
      split
      · rw [List.map_cons, ih hw]
        rfl
      · rw [ih hw, Option.toList_some, Option.toList_some, List.map_singleton, List.map_singleton,
          trimmed_concat hc]

lemma commentsFrom_append_white {w : Text} (hw : White w) (reading : Option Text) (a : Text) :
    (commentsFrom reading (a ++ w)).map trimmed = (commentsFrom reading a).map trimmed := by
  induction a generalizing reading with
  | nil =>
    rw [List.nil_append, commentsFrom_white hw]
    cases reading <;> rfl
  | cons c a ih =>
    cases reading with
    | none => rw [List.cons_append, commentsFrom, commentsFrom, ih]
    | some v =>
      rw [List.cons_append, commentsFrom, commentsFrom]
      split
      · rw [List.map_cons, List.map_cons, ih]
      · exact ih _

/-- White space after a text changes its comments at their ends only. -/
lemma comments_append_white {w : Text} (hw : White w) (a : Text) :
    (comments (a ++ w)).map trimmed = (comments a).map trimmed :=
  commentsFrom_append_white hw none a

/-! ### The first line and the later ones -/

/-- A text up to its first line break. -/
def firstLine (text : Text) : Text := text.takeWhile (· != '\n')

/-- A text from its first line break on. -/
def laterLines (text : Text) : Text := text.dropWhile (· != '\n')

lemma firstLine_append_laterLines (a : Text) : a.firstLine ++ a.laterLines = a :=
  List.takeWhile_append_dropWhile

lemma break_not_mem_firstLine (a : Text) : '\n' ∉ a.firstLine :=
  fun hmem => absurd (List.mem_takeWhile_imp hmem) (by decide)

lemma laterLines_cases (a : Text) : a.laterLines = [] ∨ ∃ rest, a.laterLines = '\n' :: rest := by
  cases hlater : a.laterLines with
  | nil => exact .inl rfl
  | cons c rest =>
    have hhead : (a.dropWhile (· != '\n')).head? = some c := by
      rw [← laterLines, hlater]
      rfl
    have hc := List.head?_dropWhile_not (· != '\n') a
    rw [hhead] at hc
    exact .inr ⟨rest, by rw [bne_eq_false_iff_eq.1 hc]⟩

lemma firstLine_append {a : Text} (ha : '\n' ∉ a) (b : Text) :
    firstLine (a ++ b) = a ++ b.firstLine := by
  refine List.takeWhile_append_of_pos fun c hc => bne_iff_ne.2 ?_
  rintro rfl
  exact ha hc

/-- A first line that ends in the first part of a text. -/
lemma firstLine_append_of_mem {a : Text} (ha : '\n' ∈ a) (b : Text) :
    firstLine (a ++ b) = a.firstLine := by
  rw [firstLine, List.takeWhile_append, if_neg]
  · rfl
  · intro hlength
    have hwhole := (List.takeWhile_sublist (· != '\n')).eq_of_length hlength
    exact break_not_mem_firstLine a (by rwa [firstLine, hwhole])

lemma laterLines_append {a : Text} (ha : '\n' ∉ a) (b : Text) :
    laterLines (a ++ b) = b.laterLines := by
  refine List.dropWhile_append_of_pos fun c hc => bne_iff_ne.2 ?_
  rintro rfl
  exact ha hc

/-- A text with nothing but white space on its first line. -/
def OpensWhite (text : Text) : Prop := White text.firstLine

lemma White.opensWhite {a : Text} (ha : White a) : OpensWhite a :=
  fun c hc => ha c ((List.takeWhile_sublist _).subset hc)

lemma OpensWhite.append {a b : Text} (ha : OpensWhite a) (hb : OpensWhite b) :
    OpensWhite (a ++ b) := by
  by_cases hbreak : '\n' ∈ a
  · rwa [OpensWhite, firstLine_append_of_mem hbreak]
  · have hwhole := firstLine_append hbreak []
    rw [List.append_nil, show firstLine [] = [] from rfl, List.append_nil] at hwhole
    rw [OpensWhite, firstLine_append hbreak]
    rw [OpensWhite, hwhole] at ha
    exact White.append ha hb

lemma OpensWhite.left {a b : Text} (h : OpensWhite (a ++ b)) : OpensWhite a := by
  by_cases hbreak : '\n' ∈ a
  · rwa [OpensWhite, firstLine_append_of_mem hbreak] at h
  · rw [OpensWhite, firstLine_append hbreak] at h
    exact fun c hc => h c (List.mem_append_left _ ((List.takeWhile_sublist _).subset hc))

/-- Where the rest of a line is white, the comments of the line are those before it. -/
lemma comments_firstLine {a b : Text} (ha : '\n' ∉ a) (hb : OpensWhite b) :
    (comments (firstLine (a ++ b))).map trimmed = (comments a).map trimmed := by
  rw [firstLine_append ha, comments_append_white hb]

/-- Where the rest of a line is white, the comments of the later lines are those after the line. -/
lemma comments_laterLines {a b : Text} (ha : '\n' ∉ a) (hb : OpensWhite b) :
    comments (laterLines (a ++ b)) = comments b := by
  conv => rhs; rw [← firstLine_append_laterLines b]
  rw [laterLines_append ha, comments_append_of_hash_not_mem hb.hash_not_mem]

end Text

end KeyOrder
