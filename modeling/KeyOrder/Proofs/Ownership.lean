import KeyOrder.Proofs.EqualKeys
import KeyOrder.Proofs.GapReading
import KeyOrder.Proofs.GapText
import KeyOrder.Proofs.LayoutDecision

/-!
# Comments stay with their entries

A fix moves the comments that an entry owns together with it.  Whether the entry owns them in the
new text as well is decided anew, by the lines there.  It does where every comma stands on the last
line of its entry and no line is continued between the entries:

* `Container.WellFormed.exists_shared`: the text of every gap after a rearrangement is the comma,
  the comments that trail the entry which has come before it, and those that lead the one after it;
* `Container.WellFormed.owned_of_shared`: entries own what such gaps share out to them.

Elsewhere a comment can come to swallow a backslash, or go to another entry.
-/

namespace KeyOrder

/-- The comments that an entry owns, above it and after it, up to white space at their ends. -/
def Relocation.ownedComments (src : Source) (e : Entry) : List Text × List Text :=
  ((leadingComments src e).map fun t => t.value.trimmed,
    (trailingComments src e).map fun t => t.value.trimmed)

/-- A container whose commas stand on the last lines of their entries and in whose gaps no line is
continued. -/
structure Container.Plain (src : Source) (c : Container) (opening closing : Token) : Prop where
  comma : ∀ e ∈ c.entries, (Relocation.commaAfter src e).2 = e.endLine
  straight : ∀ j, src.Straight (c.gap opening closing j)

/-- The texts of the gaps of a container. -/
def Container.gapTexts (src : Source) (c : Container) (opening closing : Token) : List Text :=
  List.ofFn fun j => src.slice (c.gap opening closing j)

/-- The text of a gap after some edits. -/
def Container.gapAfter (src : Source) (c : Container) (opening closing : Token) (es : List Edit)
    (j : Fin (c.entries.length + 1)) : Text :=
  Edit.rewrittenIn src.text es (c.gap opening closing j)

/-- The text of a gap is shared by the entries around it: after the bracket or comma at its start
there are the comments that trail the entry before it, on one line, and on later lines those that
lead the entry after it.  What every entry owns is given. -/
structure Text.Shared {n : Nat} (owned : Fin n → List Text × List Text) (j : Nat) (text : Text)
    (head trailing leading tail : Text) : Prop where
  eq : text = head ++ ((trailing ++ leading) ++ tail)
  parts : GapParts n j head (trailing ++ leading) tail
  oneLine : '\n' ∉ trailing
  opensWhite : leading.OpensWhite
  before : ∀ k : Fin n, k.val + 1 = j → trailing.comments.map trimmed = (owned k).2
  after : ∀ k : Fin n, k.val = j → leading.comments.map trimmed = (owned k).1

lemma Text.Shared.cast {m n : Nat} (hmn : m = n) {owned : Fin n → List Text × List Text} {j : Nat}
    {text head trailing leading tail : Text} (h : Shared owned j text head trailing leading tail) :
    Shared (fun i : Fin m => owned (i.cast hmn)) j text head trailing leading tail := by
  subst hmn
  exact h

namespace Container.WellFormed

variable {src : Source} {c : Container} {opening closing : Token}
  (h : c.WellFormed src opening closing)

include h

/-! ### The stretches around an entry -/

lemma gap_start_le_stretch {j : Fin (c.entries.length + 1)} {s : Range} (hn : 0 < c.entries.length)
    (hat : Frame.StretchAt (frames src c) closing.range.start j s) :
    (c.gap opening closing j).start ≤ s.start := by
  cases j using Fin.cases with
  | zero =>
    rw [(hat.entry ⟨0, hn⟩ rfl).1]
    have hfirst := h.frame_first (head?_eq_get (k := ⟨0, hn⟩) rfl)
    exact Nat.le_trans h.opening_le (Nat.le_of_eq hfirst.symm)
  | succ k =>
    rw [c.gap_succ_start, hat.comma k rfl]
    exact (h.sequence.ordered k).stop_le

/-- The comma of an entry, which only the last one may lack. -/
lemma comma_cases (k : Fin c.entries.length) :
    (∃ t ∈ src.tokens.toList, t.is "," = true ∧ (c.entries.get k).range.stop ≤ t.range.start ∧
      src.CodeFree ⟨(c.entries.get k).range.stop, t.range.start⟩ ∧
      (frames src c k).comma = t.range.stop) ∨
    (frames src c k).comma = (c.entries.get k).range.stop ∧ k.val + 1 = c.entries.length := by
  rcases Relocation.commaAfter_cases src (c.entries.get k) with ⟨t, hafter, hcomma, heq⟩ | heq
  · obtain ⟨ht, -, hlo, hall⟩ := h.tokens.tokenAfter_eq_some.1 hafter
    refine .inl ⟨t, ht, hcomma, hlo, fun u hu hcode => ?_, ?_⟩
    · obtain ⟨-, -, last, hlast, -, hstop⟩ := h.aligned _ (List.get_mem c.entries k)
      rcases h.boundary_stop hlast u hu with hbefore | hafter
      · exact .inl (Nat.le_trans hbefore (Nat.le_of_eq hstop))
      · rcases hall u hu (by simp [hcode]) (by omega) with rfl | ⟨htt, htu, -⟩
        · exact .inr (Nat.le_refl _)
        · exact .inr (Nat.le_trans (Nat.le_of_lt htt) htu)
    · rw [frames, Frame.of_comma, heq]
  · refine .inr ⟨by rw [frames, Frame.of_comma, heq], ?_⟩
    -- between two entries there is a comma
    by_contra hk
    have hlt : k.val + 1 < c.entries.length := by omega
    obtain ⟨t, hcomma, ht⟩ := h.commas _ _ (infix_of_succ (i := k) (j := ⟨k.val + 1, hlt⟩) rfl)
    have hmem : t ∈ src.codeBetween (c.entries.get k).range.stop
        (c.entries.get ⟨k.val + 1, hlt⟩).range.start := by
      rw [ht]
      exact List.mem_cons_self ..
    obtain ⟨htokens, -, hlo, -⟩ := Source.mem_codeBetween.1 hmem
    have hstop := congrArg (·.1.stop) (heq.symm.trans (h.commaAfter_eq hcomma ht))
    have := h.tokens.nonempty t htokens
    simp only at hstop
    omega

/-- What the edits of a rearrangement make of a gap is made of its pieces. -/
lemma gapAfter_eq (hn : 0 < c.entries.length) (σ : Fin c.entries.length → Fin c.entries.length)
    (j : Fin (c.entries.length + 1)) :
    c.gapAfter src opening closing ((Change.all (frames src c) σ).map (Change.edit src)) j =
      (pieces src c opening closing σ j).flatMap (Piece.text src) := by
  rw [Container.gapAfter, h.rewrittenIn_gap hn, pieces, Change.text_pieces]

/-! ### Plain containers -/

section Plain

variable (hlegible : src.Legible) (hbreak : src.BreakFree) (hplain : c.Plain src opening closing)

include hplain

lemma straight_stretch (hn : 0 < c.entries.length) {j : Fin (c.entries.length + 1)} {s : Range}
    (hat : Frame.StretchAt (frames src c) closing.range.start j s) : src.Straight s :=
  (hplain.straight j).mono (h.gap_start_le_stretch hn hat) (h.stretch_stop_le hat hn)

/-- No line break stands between an entry and the end of its comma. -/
lemma break_not_mem_comma (k : Fin c.entries.length) :
    '\n' ∉ src.slice ⟨(frames src c k).stop, (frames src c k).comma⟩ := by
  intro hmem
  have he : c.entries.get k ∈ c.entries := List.get_mem ..
  have hne := lineOf_ne_of_mem (h.sequence.ordered k).stop_le hmem
  have hline := hplain.comma _ he
  rw [(h.commaAfter_spec he).2.1, (h.entryLines _ he).2, h.lines] at hline
  exact hne hline

include hlegible

/-- The text of the comments that trail an entry, and what follows it up to the next code. -/
lemma trailing_stretch (k : Fin c.entries.length) {s : Range}
    (hat : Frame.StretchAt (frames src c) closing.range.start k.succ s) (hs : src.Stretch s) :
    '\n' ∉ src.slice (frames src c k).trailing ∧ (src.slice (frames src c k).trailing).Quiet ∧
      (src.slice ⟨(frames src c k).trail, s.stop⟩).OpensWhite ∧
      (src.slice ⟨(frames src c k).trail, s.stop⟩).Quiet := by
  have hn : 0 < c.entries.length := Nat.lt_of_le_of_lt (Nat.zero_le _) k.isLt
  have he : c.entries.get k ∈ c.entries := List.get_mem ..
  have hstart : s.start = (Frame.of src (c.entries.get k)).comma := hat.comma k rfl
  have hstraight := h.straight_stretch hplain hn hat
  have hcomma := (h.frame_ordered he).comma_le
  obtain ⟨hstop, hline, hopens⟩ :=
    h.trailing_text hlegible he (hplain.comma _ he) hs hstart hstraight
  obtain ⟨hboundary, hboundary'⟩ := h.boundary_trailing he
  refine ⟨hline, Source.quiet_slice hlegible (h.codeFree_trailing he) hboundary
    (hstraight.mono (Nat.le_of_eq hstart) hstop), hopens, Source.quiet_slice hlegible
    (fun t ht hcode => ?_) hboundary' (hstraight.mono ?_ (Nat.le_refl _))⟩
  · exact (hs.codeFree t ht hcode).imp_left fun hle => by simp only [frames]; omega
  · simp only [frames]
    omega

lemma trailing_owned (k : Fin c.entries.length) :
    (src.slice (frames src c k).trailing).comments.map Text.trimmed =
      (Relocation.ownedComments src (c.entries.get k)).2 := by
  have hn : 0 < c.entries.length := Nat.lt_of_le_of_lt (Nat.zero_le _) k.isLt
  have he : c.entries.get k ∈ c.entries := List.get_mem ..
  obtain ⟨s, hat, hs⟩ := h.exists_stretch hn k.succ
  exact (h.trimmed_trailing hlegible he (hplain.comma _ he) hs (hat.comma k rfl)
    (h.straight_stretch hplain hn hat)).symm

/-- The comments that the stretch before an entry gives to it. -/
lemma leading_stretch (k : Fin c.entries.length) :
    '\n' ∉ src.slice ⟨(frames src c k).before, (frames src c k).kept⟩ ∧
      (src.slice (frames src c k).leading).OpensWhite ∧
      (src.slice ⟨(frames src c k).anchor, (frames src c k).start⟩).White ∧
      (src.slice (frames src c k).leading).comments.map Text.trimmed =
        (Relocation.ownedComments src (c.entries.get k)).1 := by
  have hn : 0 < c.entries.length := Nat.lt_of_le_of_lt (Nat.zero_le _) k.isLt
  have he : c.entries.get k ∈ c.entries := List.get_mem ..
  obtain ⟨s, hat, -⟩ := h.exists_stretch hn k.castSucc
  have hstraight := h.straight_stretch hplain hn hat
  have hs : s = ⟨(frames src c k).before, (frames src c k).start⟩ := by
    rw [← (hat.entry k rfl).1, ← (hat.entry k rfl).2]
  rw [hs] at hstraight
  obtain ⟨hline, hopens, hwhite⟩ := h.leading_text hlegible he hstraight
  exact ⟨hline, hopens, hwhite, (h.trimmed_leading hlegible he hstraight).symm⟩

/-- The comments that lead an entry start where those end that trail the entry before it. -/
lemma trail_eq_kept {k l : Fin c.entries.length} (hkl : k.val + 1 = l.val) :
    (frames src c k).trail = (frames src c l).kept := by
  have hk : c.entries.get k ∈ c.entries := List.get_mem ..
  have hl : c.entries.get l ∈ c.entries := List.get_mem ..
  rw [frames, frames, h.kept_eq hlegible hl]
  exact h.trail_eq hlegible hk (hplain.comma _ hk) (h.stretch_before hl)
    (h.before_eq_comma (infix_of_succ hkl))

/-- A line break after the last entry goes before the closing bracket. -/
lemma break_last {k : Fin c.entries.length} (hk : k.val + 1 = c.entries.length) {o : Nat}
    (ho : o ∈ (frames src c k).break?) : o = closing.range.start := by
  have he : c.entries.get k ∈ c.entries := List.get_mem ..
  have hlast := getLast?_eq_get hk
  obtain ⟨s, hat, hs⟩ := h.exists_stretch (by omega) k.succ
  have hstart : s.start = (Frame.of src (c.entries.get k)).comma := hat.comma k rfl
  have hstop : s.stop = closing.range.start := hat.last hk
  have htrail := h.trail_eq hlegible he (hplain.comma _ he) hs hstart
  have hboundary := (h.boundary_trailing he).1
  have hcomma := (h.frame_ordered he).comma_le
  rw [← hstart] at hboundary hcomma
  obtain ⟨t, hnext, hline, rfl⟩ := Frame.exists_of_mem_break ho
  obtain ⟨ht, -, hlo, hall⟩ := h.tokens.tokenAfter_eq_some.1 hnext
  have hnonempty := h.tokens.nonempty t ht
  rcases hall closing (h.closing_after hlast).1 rfl (h.frame_last hlast).1 with rfl | ⟨-, htc, -⟩
  · rfl
  -- before the bracket there are comments only, and none of them is on the line of the comma
  exfalso
  rcases h.token_cases hs hboundary ht with hbefore | hafter | hmem
  · omega
  · omega
  · rcases h.comment_line_cases hlegible hmem with ⟨-, hend⟩ | ⟨hne, -⟩
    · obtain ⟨-, hcomment, hlo', -⟩ := Source.mem_commentsIn.1 hmem
      have hfirst : t ∈ src.commentsIn ⟨s.start, src.lineEnd s⟩ :=
        Source.mem_commentsIn.2 ⟨ht, hcomment, hlo', hend⟩
      have hpair : (src.commentsIn ⟨s.start, src.lineEnd s⟩).Pairwise Token.Before :=
        h.tokens.pairwise.filter _
      have hle := Frame.le_endOf hpair hfirst s.start
      omega
    · rw [hline, (h.commaAfter_spec he).2.1, hstart] at hne
      exact hne rfl

/-- Comments that come to lead an entry are the comments of the text before it. -/
lemma leading_moved {a l : Fin c.entries.length} {breaks rest : Text}
    (hbreaks : ∀ ch ∈ breaks, ch = '\n')
    (hrest : ∀ ch ∈ rest, ch = '\n' ∨
      ch ∈ src.slice ⟨(frames src c l).anchor, (frames src c l).start⟩) :
    (breaks ++ (src.slice (frames src c a).leading ++ rest)).OpensWhite ∧
      (breaks ++ (src.slice (frames src c a).leading ++ rest)).comments.map Text.trimmed =
        (Relocation.ownedComments src (c.entries.get a)).1 := by
  obtain ⟨-, hopens, -, howned⟩ := h.leading_stretch hlegible hplain a
  obtain ⟨-, -, hwhite, -⟩ := h.leading_stretch hlegible hplain l
  have hbreaks' := Text.white_of_forall_eq hbreaks
  have hrest' : rest.White := fun ch hch =>
    (hrest ch hch).elim (fun heq => by rw [heq]; rfl) (hwhite ch)
  constructor
  · exact hbreaks'.opensWhite.append (hopens.append hrest'.opensWhite)
  · rw [Text.comments_append_of_hash_not_mem hbreaks'.hash_not_mem,
      Text.comments_append_white hrest', howned]

include hbreak

/-- The text from an entry to the end of its comma. -/
lemma comma_text (k : Fin c.entries.length) :
    (src.slice ⟨(frames src c k).stop, (frames src c k).comma⟩).IsComma ∨
      src.slice ⟨(frames src c k).stop, (frames src c k).comma⟩ = [] ∧
        k.val + 1 = c.entries.length := by
  have hn : 0 < c.entries.length := Nat.lt_of_le_of_lt (Nat.zero_le _) k.isLt
  have hline := h.break_not_mem_comma hplain k
  rcases h.comma_cases k with ⟨t, ht, his, hlo, hfree, hcomma⟩ | ⟨hcomma, hk⟩
  · obtain ⟨hvalue, -⟩ := hlegible.value t ht
    have hnonempty := h.tokens.nonempty t ht
    have hsplit : src.slice ⟨(frames src c k).stop, (frames src c k).comma⟩ =
        src.slice ⟨(c.entries.get k).range.stop, t.range.start⟩ ++ [','] := by
      rw [hcomma, show [','] = t.value from (beq_iff_eq.1 his).symm, ← hvalue]
      exact (src.text.slice_append_slice hlo (Nat.le_of_lt hnonempty)).symm
    rw [hsplit] at hline ⊢
    rw [List.mem_append, not_or] at hline
    refine .inl ⟨_, rfl, ?_, hline.1⟩
    -- a comment before the comma would put it on another line
    have hnone : src.commentsIn ⟨(c.entries.get k).range.stop, t.range.start⟩ = [] := by
      refine List.eq_nil_iff_forall_not_mem.2 fun u hu => hline.1 ?_
      obtain ⟨hmem, hcomment, hulo, huhi⟩ := Source.mem_commentsIn.1 hu
      have hu' := h.tokens.nonempty u hmem
      obtain ⟨o, hlo', hhi', ho⟩ :=
        Text.mem_slice.1 (h.lineBreak_after hbreak hmem hcomment ht huhi)
      simp only at hulo
      exact Text.mem_slice.2 ⟨o, by simp only; omega, hhi', ho⟩
    obtain ⟨-, -, last, hlast, -, hstop⟩ := h.aligned _ (List.get_mem c.entries k)
    have hboundary := h.boundary_stop hlast
    rw [hstop] at hboundary
    obtain ⟨s, hat, hs⟩ := h.exists_stretch hn k.succ
    have hend := Nat.le_trans hs.le (h.stretch_stop_le hat hn)
    rw [hat.comma k rfl, hcomma] at hend
    refine (Source.tokenFree_of_commentsIn hfree hboundary (h.boundary_start ht) hnone).white
      hlegible ((hplain.straight k.succ).mono ?_ ?_)
    · exact Nat.le_of_eq (c.gap_succ_start opening closing k)
    · simp only
      omega
  · refine .inr ⟨?_, hk⟩
    rw [hcomma]
    exact Text.slice_self _ _

/-! ### The gaps after a rearrangement -/

variable {σ : Fin c.entries.length → Fin c.entries.length} (hσ : Function.Injective σ)

include hσ

omit hbreak in
/-- The gap before the first entry. -/
lemma shared_first {k : Fin c.entries.length} (hk : k.val = 0) :
    ∃ head trailing leading,
      Text.Shared (fun i => Relocation.ownedComments src (c.entries.get (σ i))) k.val
        (Edit.rewritten src.text opening.range.start (frames src c k).start
          ((Change.gapPart (frames src c) σ k.castSucc).map (Change.edit src)))
        head trailing leading [] := by
  have hfirst : (frames src c k).before = opening.range.stop := h.frame_first (head?_eq_get hk)
  have hkept := (h.sequence.ordered k).before_le
  rw [hfirst] at hkept
  obtain ⟨breaks, rest, heq, hbreaks, hrest⟩ := Change.exists_rewritten_first h.sequence hσ src hk
    (Nat.le_trans h.opening_le hkept)
  obtain ⟨hopens, howned⟩ := h.leading_moved hlegible hplain (a := σ k) hbreaks hrest
  obtain ⟨hline, -, -, -⟩ := h.leading_stretch hlegible hplain k
  rw [hfirst] at hline
  have hsplit : src.slice ⟨opening.range.start, (frames src c k).kept⟩ =
      src.slice opening.range ++ src.slice ⟨opening.range.stop, (frames src c k).kept⟩ :=
    (src.text.slice_append_slice h.opening_le hkept).symm
  refine ⟨src.slice opening.range, _, _, ?_, ⟨fun _ => ?_, fun hpos => ?_, fun _ => rfl,
    fun hlast => ?_⟩, hline, hopens, fun i hi => ?_, fun i hi => ?_⟩
  · rw [heq, hsplit]
    simp only [List.append_assoc, List.append_nil]
  · rw [(hlegible.value opening h.opening_mem.1).1, h.brackets.length.1]
  · omega
  · omega
  · omega
  · obtain rfl : i = k := Fin.ext hi
    exact howned

/-- The gap between two entries. -/
lemma shared_next {k l : Fin c.entries.length} (hkl : k.val + 1 = l.val) :
    ∃ head trailing leading,
      Text.Shared (fun i => Relocation.ownedComments src (c.entries.get (σ i))) l.val
        (Edit.rewritten src.text (frames src c k).stop (frames src c l).start
          ((Change.gapPart (frames src c) σ l.castSucc).map (Change.edit src)))
        head trailing leading [] := by
  obtain ⟨breaks, rest, heq, hbreaks, hrest⟩ := Change.exists_rewritten_next h.sequence hσ src hkl
    (h.trail_eq_kept hlegible hplain hkl)
  obtain ⟨hopens, howned⟩ := h.leading_moved hlegible hplain (a := σ l) hbreaks hrest
  obtain ⟨s, hat, hs⟩ := h.exists_stretch (by omega) (σ k).succ
  obtain ⟨hline, -, -, -⟩ := h.trailing_stretch hlegible hplain (σ k) hat hs
  refine ⟨src.slice ⟨(frames src c k).stop, (frames src c k).comma⟩, _, _, ?_, ⟨fun hl => ?_,
    fun _ => ?_, fun _ => rfl, fun hlast => ?_⟩, hline, hopens, fun i hi => ?_, fun i hi => ?_⟩
  · rw [heq, List.append_nil]
  · omega
  · refine (h.comma_text hlegible hbreak hplain k).imp_right fun hnone => ?_
    omega
  · omega
  · obtain rfl : i = k := Fin.ext (by omega)
    exact h.trailing_owned hlegible hplain (σ i)
  · obtain rfl : i = l := Fin.ext (by omega)
    exact howned

/-- The gap after the last entry. -/
lemma shared_last {k : Fin c.entries.length} (hk : k.val + 1 = c.entries.length) :
    ∃ head trailing leading tail,
      Text.Shared (fun i => Relocation.ownedComments src (c.entries.get (σ i))) c.entries.length
        (Edit.rewritten src.text (frames src c k).stop closing.range.stop
          ((Change.gapPart (frames src c) σ k.succ).map (Change.edit src)))
        head trailing leading tail := by
  have hn : 0 < c.entries.length := by omega
  obtain ⟨breaks, heq, hbreaks⟩ := Change.exists_rewritten_last h.sequence hσ src hk
    fun o => h.break_last hlegible hplain hk
  have hbreaks' := Text.white_of_forall_eq hbreaks
  obtain ⟨s, hat, hs⟩ := h.exists_stretch hn k.succ
  obtain ⟨-, -, hopens, hquiet⟩ := h.trailing_stretch hlegible hplain k hat hs
  have hchain := h.chain_stretch hat hn hσ
  rw [hat.last hk] at hopens hquiet hchain
  rw [c.gap_succ_start] at hchain
  obtain ⟨s', hat', hs'⟩ := h.exists_stretch hn (σ k).succ
  obtain ⟨hline, hquiet', -, -⟩ := h.trailing_stretch hlegible hplain (σ k) hat' hs'
  -- the bracket is not touched
  have hnil : Edit.Chain closing.range.start closing.range.stop [] := h.closing_le hn
  have hbracket := Edit.rewritten_append src.text hchain hnil
  rw [List.append_nil] at hbracket
  have hclosing := (h.closing_after (getLast?_eq_get hk)).1
  refine ⟨src.slice ⟨(frames src c k).stop, (frames src c k).comma⟩, _,
    src.slice ⟨(frames src c k).trail, closing.range.start⟩ ++ breaks, src.slice closing.range, ?_,
    ⟨fun hnone => ?_, fun _ => ?_, fun hlt => ?_, fun _ => ?_⟩, hline,
    hopens.append hbreaks'.opensWhite, fun i hi => ?_, fun i hi => ?_⟩
  · refine hbracket.trans ((congrArg (· ++ src.slice closing.range) heq).trans ?_)
    simp only [List.append_assoc]
  · omega
  · exact (h.comma_text hlegible hbreak hplain k).imp_right fun hnone =>
      ⟨hnone.1, rfl, hquiet'.append (hquiet.append hbreaks'.quiet)⟩
  · omega
  · rw [(hlegible.value closing hclosing).1, h.brackets.length.2]
  · obtain rfl : i = k := Fin.ext (by omega)
    exact h.trailing_owned hlegible hplain (σ i)
  · omega

/-- **After a rearrangement every gap is shared by the entries that have come to stand around
it.** -/
lemma exists_shared (hn : 0 < c.entries.length) (j : Fin (c.entries.length + 1)) :
    ∃ head trailing leading tail,
      Text.Shared (fun i => Relocation.ownedComments src (c.entries.get (σ i))) j.val
        (c.gapAfter src opening closing
          ((Change.all (frames src c) σ).map (Change.edit src)) j)
        head trailing leading tail := by
  rw [Container.gapAfter, h.rewrittenIn_gap hn]
  rcases Nat.lt_or_eq_of_le (Nat.le_of_lt_succ j.isLt) with hj | hj
  · obtain ⟨l, rfl⟩ : ∃ l : Fin c.entries.length, j = l.castSucc := ⟨⟨j.val, hj⟩, rfl⟩
    have hstop : (c.gap opening closing l.castSucc).stop = (frames src c l).start := dif_pos hj
    rw [hstop]
    rcases Nat.eq_zero_or_pos l.val with hl | hl
    · have hstart : (c.gap opening closing l.castSucc).start = opening.range.start := dif_pos hl
      rw [hstart]
      obtain ⟨head, trailing, leading, hshared⟩ := h.shared_first hlegible hplain hσ hl
      exact ⟨head, trailing, leading, [], hshared⟩
    · obtain ⟨k, hkl⟩ : ∃ k : Fin c.entries.length, k.val + 1 = l.val :=
        ⟨⟨l.val - 1, by omega⟩, by simp only; omega⟩
      have hstart : (c.gap opening closing l.castSucc).start = (frames src c k).stop := by
        rw [show l.castSucc = k.succ from Fin.ext hkl.symm, c.gap_succ_start]
        rfl
      rw [hstart]
      obtain ⟨head, trailing, leading, hshared⟩ := h.shared_next hlegible hbreak hplain hσ hkl
      exact ⟨head, trailing, leading, [], hshared⟩
  · obtain ⟨k, rfl⟩ : ∃ k : Fin c.entries.length, j = k.succ :=
      ⟨⟨j.val - 1, by omega⟩, Fin.ext (by rw [Fin.val_succ]; simp only; omega)⟩
    have hstop : (c.gap opening closing k.succ).stop = closing.range.stop :=
      dif_neg (Nat.not_lt.2 (Nat.le_of_eq hj.symm))
    rw [hstop, c.gap_succ_start, hj]
    exact h.shared_last hlegible hbreak hplain hσ hj

end Plain

/-! ### Reading the gaps again -/

/-- **Entries own the comments that the gaps share out to them**, in whatever source the gaps are
read. -/
lemma owned_of_shared (hlegible : src.Legible) (hbreak : src.BreakFree)
    {owned : Fin c.entries.length → List Text × List Text}
    (hgaps : ∀ j : Fin (c.entries.length + 1), ∃ head trailing leading tail,
      Text.Shared owned j.val (src.slice (c.gap opening closing j)) head trailing leading tail)
    (i : Fin c.entries.length) :
    Relocation.ownedComments src (c.entries.get i) = owned i := by
  have hn : 0 < c.entries.length := Nat.lt_of_le_of_lt (Nat.zero_le _) i.isLt
  have he : c.entries.get i ∈ c.entries := List.get_mem ..
  refine Prod.ext ?_ ?_
  · -- the gap before the entry
    obtain ⟨head, trailing, leading, tail, hshared⟩ := hgaps i.castSucc
    obtain ⟨s, hat, hs⟩ := h.exists_stretch hn i.castSucc
    have hslice := h.slice_of_gapParts hlegible hbreak hn hat hshared.eq hshared.parts hs
    have hvalues := congrArg (List.map Text.trimmed) (h.map_value_leading hlegible he)
    have hrange : s = ⟨(frames src c i).before, (frames src c i).start⟩ := by
      rw [← (hat.entry i rfl).1, ← (hat.entry i rfl).2]
    rw [hrange] at hslice
    rw [List.map_map] at hvalues
    refine hvalues.trans ?_
    rw [← hshared.after i rfl, ← Text.comments_laterLines hshared.oneLine hshared.opensWhite,
      ← hslice]
    rfl
  · -- the gap after it
    obtain ⟨head, trailing, leading, tail, hshared⟩ := hgaps i.succ
    obtain ⟨s, hat, hs⟩ := h.exists_stretch hn i.succ
    have hslice := h.slice_of_gapParts hlegible hbreak hn hat hshared.eq hshared.parts hs
    have hcomma := (h.start_of_gapParts hlegible hbreak hn hat hshared.eq hshared.parts).2 i rfl
    have hvalues := congrArg (List.map Text.trimmed)
      (h.map_value_trailing hlegible he hcomma hs (hat.comma i rfl))
    rw [List.map_map, hslice, Text.comments_firstLine hshared.oneLine hshared.opensWhite,
      hshared.before i rfl] at hvalues
    exact hvalues

end Container.WellFormed

/-- **The comments that an entry owns stay its own.**  In a container whose commas stand on the last
lines of their entries and in whose gaps no line is continued, slot `i` gets entry `σ i` with a fix,
and the gaps are rewritten.  In whatever text these gaps are read again, around as many entries, the
entry at slot `i` owns the comments that entry `σ i` has owned, above it and after it, up to white
space at their ends. -/
theorem fix_keeps_owned_comments {text : Text} {src : Source} {c : Container}
    {opening closing : Token} (hsrc : Source.read text = .ok src) (hpaired : text.paired = true)
    (h : c.WellFormed src opening closing) (hplain : c.Plain src opening closing) {o : Order}
    {r : Relocator} {es : List Edit} (hfix : (r.fix src o c).1 = .ok es) (hne : es ≠ []) :
    ∃ (m : Edit) (σ : Equiv.Perm (Fin c.entries.length)),
      Edit.merge es src.text = .ok m ∧ Sorts o c.entries σ ∧
      m.apply src.text = src.framed opening closing (c.gapAfter src opening closing es)
        (fun i => src.slice (c.ranges (σ i))) ∧
      ∀ (text' : Text) (src' : Source) (c' : Container) (opening' closing' : Token),
        Source.read text' = .ok src' → text'.paired = true →
        c'.WellFormed src' opening' closing' →
        c'.gapTexts src' opening' closing' = List.ofFn (c.gapAfter src opening closing es) →
        c'.entries.map (Relocation.ownedComments src') =
          List.ofFn fun i => Relocation.ownedComments src (c.entries.get (σ i)) := by
  obtain ⟨σ, hσ, rfl⟩ := h.exists_sorts (Relocator.edits_of_fix hfix hne)
  have hn := Change.length_pos_of_ne_nil fun hnil => hne (by rw [hnil]; rfl)
  obtain ⟨m, hm, happly⟩ := h.exists_merge σ.injective hne
  simp only [← h.gapAfter_eq hn] at happly
  refine ⟨m, σ, hm, hσ, happly, fun text' src' c' opening' closing' hsrc' hpaired' h' hgaps => ?_⟩
  have hlength : c'.entries.length = c.entries.length := by
    have heq := congrArg List.length hgaps
    rw [Container.gapTexts, List.length_ofFn, List.length_ofFn] at heq
    omega
  -- what the gaps share out is read off them again
  have hshared := h.exists_shared (Source.legible_of_read hpaired hsrc)
    (Source.breakFree_of_read hsrc) hplain σ.injective hn
  have howned : ∀ i, Relocation.ownedComments src' (c'.entries.get i) =
      Relocation.ownedComments src (c.entries.get (σ (i.cast hlength))) := by
    refine h'.owned_of_shared (Source.legible_of_read hpaired' hsrc')
      (Source.breakFree_of_read hsrc') fun j => ?_
    obtain ⟨head, trailing, leading, tail, hj⟩ := hshared (j.cast (by rw [hlength]))
    have hget := congrArg (·[j.val]?) hgaps
    simp only [Container.gapTexts, List.getElem?_ofFn] at hget
    rw [dif_pos j.isLt, dif_pos (hlength ▸ j.isLt)] at hget
    rw [Option.some.inj hget]
    exact ⟨head, trailing, leading, tail, hj.cast hlength⟩
  refine List.ext_getElem (by rw [List.length_map, List.length_ofFn, hlength]) fun i hi hi' => ?_
  rw [List.getElem_map, List.getElem_ofFn]
  exact howned ⟨i, by rwa [List.length_map] at hi⟩

namespace Sample

/-- The text `{⏎'b':1, # x⏎# y⏎'a':2, # z⏎}`: a comment after each entry, and one above the
second. -/
def commented : Text :=
  ['\x7b', '\n', '\'', 'b', '\'', ':', '1', ',', ' ', '#', ' ', 'x', '\n', '#', ' ', 'y', '\n',
    '\'', 'a', '\'', ':', '2', ',', ' ', '#', ' ', 'z', '\n', '\x7d']

/-- The display of the text is well-formed and plain.  So is that of the fixed text well-formed, and
its gaps read as the edits make them. -/
def isCommented (r : (Source × Container) × List Edit × Edit × (Source × Container)) : Bool :=
  let opening : Token := .make .operator ['\x7b'] 0 1 1
  let closing : Token := .make .operator ['\x7d'] 28 5 5
  decide (r.1.2.WellFormed r.1.1 opening closing) &&
    decide (∀ e ∈ r.1.2.entries, (Relocation.commaAfter r.1.1 e).2 = e.endLine) &&
    decide (r.2.1 ≠ []) && (r.2.2.1.apply r.1.1.text).paired &&
    decide (r.2.2.2.2.WellFormed r.2.2.2.1 opening closing) &&
    decide (r.2.2.2.2.gapTexts r.2.2.2.1 opening closing =
      List.ofFn (r.1.2.gapAfter r.1.1 opening closing r.2.1)) &&
    decide (r.2.2.2.2.entries.map (Relocation.ownedComments r.2.2.2.1) =
      [([['#', ' ', 'y']], [['#', ' ', 'z']]), ([], [['#', ' ', 'x']])])

lemma exists_commented :
    ∃ r, fixOnly commented = .ok r ∧ isCommented r = true := by
  refine Outcome.exists_of_toOption_map ?_
  decide +kernel

/-- The text `x = {'b': 1, \⏎ 'a': 2, # ta⏎}⏎`: a backslash continues the line between the entries,
and a comment trails the second one. -/
def continued : Text :=
  ['x', ' ', '=', ' ', '\x7b', '\'', 'b', '\'', ':', ' ', '1', ',', ' ', '\\', '\n', ' ', '\'',
    'a', '\'', ':', ' ', '2', ',', ' ', '#', ' ', 't', 'a', '\n', '\x7d', '\n']

end Sample

/-- In `{⏎'b':1, # x⏎# y⏎'a':2, # z⏎}` a comment trails each entry and another one leads the second.
The fix gives `{⏎# y⏎'a':2, # z⏎'b':1, # x⏎}`, where the entries own the same comments. -/
theorem fix_keeps_owned_comments_sample :
    ∃ src k es m src' k',
      Source.ofText Sample.commented = .ok src ∧ src.containers = .ok [k] ∧
      (Relocator.fresh.fix src ⟨.ascending, false, false⟩ k).1 = .ok es ∧
      Edit.merge es src.text = .ok m ∧ Source.ofText (m.apply src.text) = .ok src' ∧
      src'.containers = .ok [k'] ∧
      k'.entries.map (Relocation.ownedComments src') =
        [([['#', ' ', 'y']], [['#', ' ', 'z']]), ([], [['#', ' ', 'x']])] ∧
      ∃ σ : Equiv.Perm (Fin k.entries.length), Sorts ⟨.ascending, false, false⟩ k.entries σ ∧
        k'.entries.map (Relocation.ownedComments src') =
          List.ofFn fun i => Relocation.ownedComments src (k.entries.get (σ i)) := by
  obtain ⟨⟨p, es, m, q⟩, hresult, hdata⟩ := Sample.exists_commented
  obtain ⟨hp, hes, hm, hq⟩ := Sample.fixOnly_eq_ok hresult
  obtain ⟨hsrc, hks⟩ := Sample.only_eq_ok hp
  obtain ⟨hsrc', hks'⟩ := Sample.only_eq_ok hq
  simp only [Sample.isCommented, Bool.and_eq_true, decide_eq_true_eq] at hdata
  obtain ⟨⟨⟨⟨⟨⟨h, hcomma⟩, hne⟩, hpaired'⟩, h'⟩, hgaps⟩, howned⟩ := hdata
  have htext : p.1.text = Sample.commented := (Source.ofText_eq_ok hsrc).1
  have hbackslash : '\\' ∉ p.1.text := by
    rw [htext]
    decide
  have hplain : p.2.Plain p.1 (.make .operator ['\x7b'] 0 1 1)
      (.make .operator ['\x7d'] 28 5 5) :=
    ⟨hcomma, fun j o _ _ ho => absurd (List.mem_of_getElem? ho) hbackslash⟩
  obtain ⟨m', σ, hm', hσ, -, hall⟩ :=
    fix_keeps_owned_comments (Source.read_of_ofText hsrc) (by decide) h hplain hes hne
  obtain rfl : m = m' := Except.ok.inj (hm.symm.trans hm')
  exact ⟨p.1, p.2, es, m, q.1, q.2, hsrc, hks, hes, hm, hsrc', hks', howned, σ, hσ,
    hall _ _ _ _ _ (Source.read_of_ofText hsrc') hpaired' h' hgaps⟩

/-- In `x = {'b': 1, \⏎ 'a': 2, # ta⏎}⏎` the comment `# ta` trails the second entry.  The fix gives
`x = {'a': 2, # ta \⏎ 'b': 1,⏎}⏎`: the comment has swallowed the backslash. -/
theorem fix_comment_swallows_backslash :
    ∃ src k es m src' k',
      Source.ofText Sample.continued = .ok src ∧ src.containers = .ok [k] ∧
      (Relocator.fresh.fix src ⟨.ascending, false, false⟩ k).1 = .ok es ∧
      Edit.merge es src.text = .ok m ∧ Source.ofText (m.apply src.text) = .ok src' ∧
      src'.containers = .ok [k'] ∧
      k.entries.map (src.slice ·.range) =
        [['\'', 'b', '\'', ':', ' ', '1'], ['\'', 'a', '\'', ':', ' ', '2']] ∧
      k.entries.map (Relocation.ownedComments src) = [([], []), ([], [['#', ' ', 't', 'a']])] ∧
      k'.entries.map (src'.slice ·.range) =
        [['\'', 'a', '\'', ':', ' ', '2'], ['\'', 'b', '\'', ':', ' ', '1']] ∧
      k'.entries.map (Relocation.ownedComments src') =
        [([], [['#', ' ', 't', 'a', ' ', '\\']]), ([], [])] := by
  have hrun : (Sample.fixOnly Sample.continued).toOption.map (fun r =>
      decide (r.1.2.entries.map (r.1.1.slice ·.range) =
        [['\'', 'b', '\'', ':', ' ', '1'], ['\'', 'a', '\'', ':', ' ', '2']]) &&
      decide (r.1.2.entries.map (Relocation.ownedComments r.1.1) =
        [([], []), ([], [['#', ' ', 't', 'a']])]) &&
      decide (r.2.2.2.2.entries.map (r.2.2.2.1.slice ·.range) =
        [['\'', 'a', '\'', ':', ' ', '2'], ['\'', 'b', '\'', ':', ' ', '1']]) &&
      decide (r.2.2.2.2.entries.map (Relocation.ownedComments r.2.2.2.1) =
        [([], [['#', ' ', 't', 'a', ' ', '\\']]), ([], [])])) = some true := by
    decide +kernel
  obtain ⟨⟨p, es, m, q⟩, hresult, hdata⟩ := Outcome.exists_of_toOption_map hrun
  obtain ⟨hp, hes, hm, hq⟩ := Sample.fixOnly_eq_ok hresult
  obtain ⟨hsrc, hks⟩ := Sample.only_eq_ok hp
  obtain ⟨hsrc', hks'⟩ := Sample.only_eq_ok hq
  simp only [Bool.and_eq_true, decide_eq_true_eq] at hdata
  obtain ⟨⟨⟨hbefore, howned⟩, hafter⟩, howned'⟩ := hdata
  exact ⟨p.1, p.2, es, m, q.1, q.2, hsrc, hks, hes, hm, hsrc', hks', hbefore, howned, hafter,
    howned'⟩

end KeyOrder
