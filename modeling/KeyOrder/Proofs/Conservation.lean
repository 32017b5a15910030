import KeyOrder.Proofs.Convergence
import KeyOrder.Proofs.Fixes
import KeyOrder.Proofs.Merge
import KeyOrder.Proofs.Shifts
import Mathlib.Algebra.BigOperators.Group.List.Basic
import Mathlib.Algebra.GroupWithZero.Nat

/-!
# Nothing is lost or duplicated

A merged edit holds what its edits put in and what stood between them, so the characters of a text
balance: those that edits take out against those that they put in.  The edits of a relocation take
out and put in the same, line breaks apart.  Hence a fix only adds line breaks, and so does a pass,
whichever fixes it puts off, and so does a run.
-/

namespace KeyOrder

/-! ### Texts that gain line breaks -/

/-- A text holds the characters of another one, and perhaps more line breaks. -/
structure Text.Gains (old new : Text) : Prop where
  same : ∀ ch, ch ≠ '\n' → new.count ch = old.count ch
  breaks : old.count '\n' ≤ new.count '\n'

namespace Text.Gains

lemma refl (text : Text) : Gains text text := ⟨fun _ _ => rfl, Nat.le_refl _⟩

lemma trans {a b c : Text} (h : Gains a b) (h' : Gains b c) : Gains a c :=
  ⟨fun ch hch => (h'.same ch hch).trans (h.same ch hch), Nat.le_trans h.breaks h'.breaks⟩

lemma append {a a' b b' : Text} (h : Gains a a') (h' : Gains b b') :
    Gains (a ++ b) (a' ++ b') := by
  refine ⟨fun ch hch => ?_, ?_⟩
  · rw [List.count_append, List.count_append, h.same ch hch, h'.same ch hch]
  · rw [List.count_append, List.count_append]
    exact Nat.add_le_add h.breaks h'.breaks

end Text.Gains

/-! ### What edits take out and put in -/

namespace Edit

/-- How often edits put in a character. -/
def given (es : List Edit) (ch : Char) : Nat := (es.map fun e => e.text.count ch).sum

/-- How often edits take out a character. -/
def taken (text : Text) (es : List Edit) (ch : Char) : Nat :=
  (es.map fun e => (text.slice e.range.start e.range.stop).count ch).sum

lemma given_inOrder (es : List Edit) (ch : Char) : given (inOrder es) ch = given es ch :=
  ((inOrder_perm es).map _).sum_eq

lemma taken_inOrder (text : Text) (es : List Edit) (ch : Char) :
    taken text (inOrder es) ch = taken text es ch :=
  ((inOrder_perm es).map _).sum_eq

/-- Where edits follow one another, the new text and what was taken out are as much as the old text
and what was put in. -/
lemma count_rewritten (text : Text) {lo hi : Nat} {es : List Edit} (h : Chain lo hi es)
    (ch : Char) :
    (rewritten text lo hi es).count ch + taken text es ch =
      (text.slice lo hi).count ch + given es ch := by
  induction es generalizing lo with
  | nil => rfl
  | cons e es ih =>
    obtain ⟨hlo, hrange, hchain⟩ := h
    have hrest := ih hchain
    have hold : (text.slice lo hi).count ch = (text.slice lo e.range.start).count ch +
        ((text.slice e.range.start e.range.stop).count ch +
          (text.slice e.range.stop hi).count ch) := by
      rw [← List.count_append, ← List.count_append, text.slice_append_slice hrange hchain.le,
        text.slice_append_slice hlo (Nat.le_trans hrange hchain.le)]
    simp only [rewritten, given, taken, List.map_cons, List.sum_cons, List.count_append] at *
    omega

end Edit

/-! ### Groups of edits balance -/

namespace Shift

/-- How often the groups put in a character that they do not take from the text. -/
def extra (shifts : List Shift) (ch : Char) : Nat :=
  (shifts.map fun
    | lineBreak _ => ['\n'].count ch
    | _ => 0).sum

lemma extra_eq_zero (shifts : List Shift) {ch : Char} (hch : ch ≠ '\n') : extra shifts ch = 0 := by
  refine List.sum_eq_zero fun n hn => ?_
  obtain ⟨s, -, rfl⟩ := List.mem_map.1 hn
  split
  · exact List.count_eq_zero.2 (by simpa using hch)
  · rfl

lemma given_flatMap (src : Source) (shifts : List Shift) (ch : Char) :
    Edit.given (shifts.flatMap (edits src)) ch +
        ((shifts.filterMap slot?).map fun r => (src.slice r).count ch).sum =
      Edit.taken src.text (shifts.flatMap (edits src)) ch +
        ((shifts.filterMap entry?).map fun r => (src.slice r).count ch).sum + extra shifts ch := by
  induction shifts with
  | nil => rfl
  | cons s shifts ih =>
    unfold Edit.given Edit.taken extra at *
    cases s with
    | entry slot range =>
      simp only [List.flatMap_cons, edits, List.map_append, List.sum_append, List.map_cons,
        List.map_nil, List.sum_cons, List.sum_nil, List.filterMap_cons, slot?, entry?,
        Edit.replace] at *
      simp only [Source.slice] at *
      omega
    | comments range target =>
      simp only [List.flatMap_cons, edits, List.map_append, List.sum_append, List.map_cons,
        List.map_nil, List.sum_cons, List.sum_nil, List.filterMap_cons, slot?, entry?,
        Edit.remove, Text.slice_self, List.count_nil] at *
      simp only [Source.slice] at *
      omega
    | lineBreak offset =>
      simp only [List.flatMap_cons, edits, List.map_append, List.sum_append, List.map_cons,
        List.map_nil, List.sum_cons, List.sum_nil, List.filterMap_cons, slot?, entry?,
        Text.slice_self, List.count_nil] at *
      omega

/-- Settled groups put in what they take out, and line breaks. -/
lemma Settled.given_eq {shifts : List Shift} (h : Settled shifts) (src : Source) (ch : Char) :
    Edit.given (shifts.flatMap (edits src)) ch =
      Edit.taken src.text (shifts.flatMap (edits src)) ch + extra shifts ch := by
  have hbalance := given_flatMap src shifts ch
  have hentries := (h.entries.map fun r => (src.slice r).count ch).sum_eq
  omega

end Shift

/-! ### Fixes, passes and runs -/

/-- An edit that puts in what it takes out, and perhaps line breaks. -/
structure Edit.Conserves (text : Text) (m : Edit) : Prop where
  forward : m.range.start ≤ m.range.stop
  gains : (text.slice m.range.start m.range.stop).Gains m.text

lemma Edit.conserves_of_merge {src : Source} {shifts : List Shift} (hshifts : Shift.Settled shifts)
    {m : Edit} (h : merge (shifts.flatMap (Shift.edits src)) src.text = .ok m) :
    m.Conserves src.text := by
  have hforward : ∀ e ∈ shifts.flatMap (Shift.edits src), e.range.start ≤ e.range.stop := by
    intro e he
    obtain ⟨s, hs, he⟩ := List.mem_flatMap.1 he
    exact Shift.forward_of_mem_edits (hshifts.forward s hs) he
  obtain ⟨hchain, htext⟩ := chain_of_merge hforward h
  have hcount : ∀ ch, m.text.count ch =
      (src.text.slice m.range.start m.range.stop).count ch + Shift.extra shifts ch := by
    intro ch
    have hbalance := count_rewritten src.text hchain ch
    rw [← htext, taken_inOrder, given_inOrder, hshifts.given_eq src ch] at hbalance
    omega
  refine ⟨hchain.le, fun ch hch => ?_, ?_⟩
  · rw [hcount, Shift.extra_eq_zero shifts hch, Nat.add_zero]
  · rw [hcount]
    exact Nat.le_add_right ..

/-- The fixes of a pass that are applied only add line breaks; those put off do nothing. -/
lemma Edit.gains_applyFrom {text : Text} {last : Option Nat} {es : List Edit}
    (hes : ∀ e ∈ es, e.Conserves text) :
    Text.Gains (text.drop (last.getD 0)) (applyFrom text last es).output := by
  induction es generalizing last with
  | nil => exact .refl _
  | cons e es ih =>
    have hrest := fun e' he' => hes e' (List.mem_cons_of_mem _ he')
    rw [applyFrom]
    split
    · exact ih hrest
    · rename_i hlast
      obtain ⟨hforward, hgains⟩ := hes e (List.mem_cons_self ..)
      have hle : last.getD 0 ≤ e.range.start := by
        cases last with
        | none => exact Nat.zero_le _
        | some l =>
          simp only [Option.any_some, decide_eq_true_eq] at hlast
          simp only [Option.getD_some]
          omega
      have hlater : Text.Gains (text.drop e.range.stop)
          (applyFrom text (some e.range.stop) es).output := @ih (some e.range.stop) hrest
      have hold : text.drop (last.getD 0) = text.slice (last.getD 0) e.range.start ++
          text.slice e.range.start e.range.stop ++ text.drop e.range.stop := by
        rw [List.append_assoc, text.slice_append_drop hforward, text.slice_append_drop hle]
      rw [hold]
      exact ((Text.Gains.refl _).append hgains).append hlater

/-- No entry of a source ends before it starts. -/
def Source.EntriesForward (src : Source) : Prop :=
  ∀ ks, src.containers = .ok ks → ∀ k ∈ ks, ∀ e ∈ k.entries, e.range.start ≤ e.range.stop

/-- Whether no entry of a text ends before it starts. -/
def Text.entriesForward (text : Text) : Bool :=
  match Source.ofText text >>= Source.containers with
  | .error _ => true
  | .ok ks => ks.all fun k => k.entries.all fun e => decide (e.range.start ≤ e.range.stop)

lemma entriesForward_of_text {text : Text} (h : text.entriesForward = true) {src : Source}
    (hsrc : Source.ofText text = .ok src) : src.EntriesForward := by
  intro ks hks k hk e he
  have hboth : (Source.ofText text >>= Source.containers) = .ok ks :=
    Outcome.bind_eq_ok.2 ⟨src, hsrc, hks⟩
  rw [Text.entriesForward, hboth] at h
  simp only [List.all_eq_true, decide_eq_true_eq] at h
  exact h k hk e he

/-- The groups of a container of a source that is read from a text. -/
lemma exists_shifts_of_ofText {text : Text} {src : Source} (hsrc : Source.ofText text = .ok src)
    (hforward : src.EntriesForward) {ks : List Container} (hks : src.containers = .ok ks)
    {k : Container} (hk : k ∈ ks) {o : Order} {es : List Edit}
    (hes : Relocation.edits src o k = .ok es) :
    ∃ shifts, Shift.Settled shifts ∧ es = shifts.flatMap (Shift.edits src) :=
  Relocation.exists_shifts (Source.ordered_of_read (Source.read_of_ofText hsrc)) (Source.linesGrow_of_read (Source.read_of_ofText hsrc))
    (hforward ks hks k hk) hes

/-- A pass over a text that was checked only adds line breaks. -/
lemma gains_applyFixes {c : Configuration} {text : Text} {report : Report}
    (h : lint c text = .ok report)
    (hforward : ∀ src, Source.ofText text = .ok src → src.EntriesForward) :
    text.Gains (applyFixes text report.problems).output := by
  obtain ⟨src, ks, fixed, hsrc, hks, hperm, hfixed, -⟩ := exists_fixed_of_lint h
  obtain ⟨rfl, -, -⟩ := Source.ofText_eq_ok hsrc
  refine @Edit.gains_applyFrom _ none _ fun m hm => ?_
  -- every fix is made of the groups of one container
  obtain ⟨p, hp, rfl⟩ := List.mem_map.1 (hperm.subset ((Edit.inOrder_perm _).subset hm))
  obtain ⟨hk, -, es, hes, -, hmerge⟩ := hfixed p hp
  obtain ⟨shifts, hshifts, rfl⟩ := exists_shifts_of_ofText hsrc (hforward src hsrc) hks hk hes
  exact Edit.conserves_of_merge hshifts hmerge

/-- The texts that a run of at most `n` passes checks. -/
def lintedTexts (c : Configuration) : Nat → Text → List Text
  | 0, text => [text]
  | n + 1, text =>
    text :: match lint c text with
      | .error _ => []
      | .ok report =>
        if (applyFixes text report.problems).count = 0 then []
        else lintedTexts c n (applyFixes text report.problems).output

/-- The text after one more pass, or that at the end of the run. -/
lemma output_of_fixFrom_succ {c : Configuration} {n : Nat} {r r' : FixResult}
    (h : fixFrom .standard c (n + 1) r = .ok r') :
    r'.output = r.output ∨ (applyFixes r.output r.problems).count ≠ 0 ∧
      ∃ s, s.Checked c ∧ s.output = (applyFixes r.output r.problems).output ∧
        fixFrom .standard c n s = .ok r' := by
  rw [fixFrom] at h
  split at h
  · cases h
    exact .inl rfl
  · rename_i hcount
    split at h
    · cases h
    · cases h
    · rename_i report hreport
      exact .inr ⟨hcount, _, ⟨report, hreport, rfl⟩, rfl, h⟩

/-- A run only adds line breaks, by induction on the passes. -/
lemma gains_fixFrom {c : Configuration} {n : Nat} {r r' : FixResult} (hr : r.Checked c)
    (hforward : ∀ t ∈ lintedTexts c n r.output, ∀ src, Source.ofText t = .ok src →
      src.EntriesForward)
    (h : fixFrom .standard c n r = .ok r') : r.output.Gains r'.output := by
  induction n generalizing r with
  | zero =>
    cases h
    exact .refl _
  | succ n ih =>
    obtain ⟨report, hreport, hproblems⟩ := hr
    rcases output_of_fixFrom_succ h with heq | ⟨hcount, s, hs, houtput, h⟩
    · rw [heq]
      exact .refl _
    · rw [hproblems] at hcount houtput
      rw [lintedTexts, hreport] at hforward
      simp only [if_neg hcount, ← houtput] at hforward
      have hpass := gains_applyFixes hreport (hforward _ (List.mem_cons_self ..))
      rw [← houtput] at hpass
      exact hpass.trans (ih hs (fun t ht => hforward t (List.mem_cons_of_mem _ ht)) h)

/-- **Nothing is lost or duplicated over a whole run.**  Where no entry of a text that the run checks
ends before it starts, the output has every character as often as the text, line breaks apart, and
these at least as often.  The edits of every container come in groups: entries change places among
themselves, and every piece of comments that leaves is put in once. -/
theorem verifyAndFix_conserves {options : Json.Value} {values : List Json.Value} {maxPasses : Nat}
    {text : Text} {r : FixResult} (hvalues : Options.validate options = .ok values)
    (h : verifyAndFix .standard options maxPasses text = .ok r)
    (hforward : ∀ t ∈ lintedTexts (Options.configuration values) maxPasses text,
      ∀ src, Source.ofText t = .ok src → src.EntriesForward) :
    (∀ ch, ch ≠ '\n' → r.output.count ch = text.count ch) ∧
      text.count '\n' ≤ r.output.count '\n' ∧
      ∀ t ∈ lintedTexts (Options.configuration values) maxPasses text, ∀ src ks,
        Source.ofText t = .ok src → src.containers = .ok ks → ∀ k ∈ ks, ∀ es,
          Relocation.edits src (Options.configuration values).order k = .ok es →
            ∃ shifts, Shift.Settled shifts ∧ es = shifts.flatMap (Shift.edits src) := by
  obtain ⟨values', hvalues', h⟩ := Outcome.bind_eq_ok.1 h
  rw [hvalues] at hvalues'
  cases hvalues'
  obtain ⟨report, hreport, h⟩ := Outcome.bind_eq_ok.1 h
  have hgains : text.Gains r.output := gains_fixFrom ⟨report, hreport, rfl⟩ hforward h
  refine ⟨hgains.same, hgains.breaks, fun t ht src ks hsrc hks k hk es hes => ?_⟩
  exact exists_shifts_of_ofText hsrc (hforward t ht src hsrc) hks hk hes

/-- Two passes over `dict(b=dict(d=1,c=2),#x⏎a=0)` add a line break and nothing else. -/
theorem verifyAndFix_conserves_nested :
    ∃ values r, Options.validate .null = .ok values ∧
      verifyAndFix .standard .null 3
        ['d', 'i', 'c', 't', '(', 'b', '=', 'd', 'i', 'c', 't', '(', 'd', '=', '1', ',', 'c', '=',
          '2', ')', ',', '#', 'x', '\n', 'a', '=', '0', ')'] = .ok r ∧
      r.passes = 2 ∧
      (∀ ch, ch ≠ '\n' → r.output.count ch =
        ['d', 'i', 'c', 't', '(', 'b', '=', 'd', 'i', 'c', 't', '(', 'd', '=', '1', ',', 'c', '=',
          '2', ')', ',', '#', 'x', '\n', 'a', '=', '0', ')'].count ch) ∧
      1 ≤ r.output.count '\n' := by
  obtain ⟨values, hvalues, hforward⟩ : ∃ values, Options.validate .null = .ok values ∧
      (lintedTexts (Options.configuration values) 3
        ['d', 'i', 'c', 't', '(', 'b', '=', 'd', 'i', 'c', 't', '(', 'd', '=', '1', ',', 'c', '=',
          '2', ')', ',', '#', 'x', '\n', 'a', '=', '0', ')']).all Text.entriesForward = true := by
    refine Outcome.exists_of_toOption_map ?_
    decide +kernel
  have hrun : (verifyAndFix .standard .null 3
      ['d', 'i', 'c', 't', '(', 'b', '=', 'd', 'i', 'c', 't', '(', 'd', '=', '1', ',', 'c', '=',
        '2', ')', ',', '#', 'x', '\n', 'a', '=', '0', ')']).toOption.map (·.passes) = some 2 := by
    decide +kernel
  obtain ⟨r, hr, hpasses⟩ := Outcome.exists_of_toOption_map hrun
  obtain ⟨hsame, hbreaks, -⟩ := verifyAndFix_conserves hvalues hr fun t ht src =>
    entriesForward_of_text (List.all_eq_true.1 hforward t ht)
  exact ⟨values, r, hvalues, hr, hpasses, hsame, hbreaks⟩

end KeyOrder
