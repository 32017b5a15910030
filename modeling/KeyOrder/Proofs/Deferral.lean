import KeyOrder.Proofs.Convergence
import KeyOrder.Proofs.Selection
import KeyOrder.Proofs.Sequential

/-!
# Which fixes are put off

Fixes of one pass may overlap, touch, lie in one another or be equal, anywhere in the text.  A pass
goes through them in order and applies each one that starts past the end of the last one applied.
What it keeps is that this end belongs to an applied fix that starts no later than all fixes still
to come: so a fix that is put off starts within an applied one before it.  Between the applied fixes
there is always a character, which makes them a chain, and a chain can be applied at once or one fix
at a time.

* `Edit.marked` says which edits a pass applies, and `Edit.Choice` what such a choice is like;
* `Edit.Choice.unique`: edits allow only one choice;
* `Edit.applyFrom_marked`: what a pass makes of its choice;
* `applyFixes_chooses` puts this together for the problems of a pass.
-/

namespace KeyOrder

namespace Edit

/-! ### Applied and put off -/

/-- Edits in order, each with whether a pass applies it.  `last` is the end of the last one that was
applied before. -/
def marked (last : Option Nat) : List Edit → List (Edit × Bool)
  | [] => []
  | e :: es =>
    if last.any (e.range.start ≤ ·) then (e, false) :: marked last es
    else (e, true) :: marked (some e.range.stop) es

/-- The edits that are applied. -/
def applied (marks : List (Edit × Bool)) : List Edit := (marks.filter Prod.snd).map Prod.fst

/-- The edits that are put off. -/
def putOff (marks : List (Edit × Bool)) : List Edit := (marks.filter fun m => !m.2).map Prod.fst

section Small

variable (e : Edit) (marks marks' : List (Edit × Bool))

@[simp] lemma applied_nil : applied [] = [] := rfl

@[simp] lemma applied_cons_true : applied ((e, true) :: marks) = e :: applied marks := rfl

@[simp] lemma applied_cons_false : applied ((e, false) :: marks) = applied marks := rfl

@[simp] lemma putOff_cons_true : putOff ((e, true) :: marks) = putOff marks := rfl

@[simp] lemma putOff_cons_false : putOff ((e, false) :: marks) = e :: putOff marks := rfl

@[simp] lemma applied_append : applied (marks ++ marks') = applied marks ++ applied marks' := by
  simp [applied]

lemma applied_subset : applied marks ⊆ marks.map Prod.fst :=
  (List.filter_sublist.map Prod.fst).subset

end Small

@[simp] lemma map_fst_marked (last : Option Nat) (es : List Edit) :
    (marked last es).map Prod.fst = es := by
  induction es generalizing last with
  | nil => rfl
  | cons e es ih =>
    rw [marked]
    split <;> simp [ih]

/-- The applied edits start past the last one that was applied before, and each of them past the end
of the one before it. -/
lemma apart_marked {last : Option Nat} {es : List Edit}
    (hes : ∀ e ∈ es, e.range.start ≤ e.range.stop) :
    (∀ l ∈ last, ∀ f ∈ applied (marked last es), l < f.range.start) ∧
      (applied (marked last es)).Pairwise Apart := by
  induction es generalizing last with
  | nil => exact ⟨fun l _ f hf => absurd hf List.not_mem_nil, .nil⟩
  | cons e es ih =>
    have hrest := fun l => @ih l fun f hf => hes f (List.mem_cons_of_mem _ hf)
    rw [marked]
    split
    · exact hrest last
    · rename_i hlast
      obtain ⟨hpast, hapart⟩ := hrest (some e.range.stop)
      refine ⟨?_, .cons (hpast _ rfl) hapart⟩
      rintro l rfl f hf
      have hl : l < e.range.start := by simpa using hlast
      rcases List.mem_cons.1 hf with rfl | hf
      · exact hl
      · have := hes e (List.mem_cons_self ..)
        have := hpast _ rfl f hf
        omega

/-- An edit that is put off starts within one that was applied before it.  `done` has been gone
through, and the last one applied in it starts no later than all that come. -/
lemma covered_marked {last : Option Nat} {es : List Edit} (done : List (Edit × Bool))
    (hes : es.Pairwise fun e f => e.range.le f.range = true)
    (hlast : ∀ l ∈ last, ∃ g ∈ applied done, g.range.stop = l ∧
      ∀ e ∈ es, g.range.start ≤ e.range.start)
    {before after : List (Edit × Bool)} {f : Edit}
    (h : marked last es = before ++ (f, false) :: after) :
    ∃ g ∈ applied (done ++ before),
      g.range.start ≤ f.range.start ∧ f.range.start ≤ g.range.stop := by
  induction es generalizing last done before with
  | nil => exact absurd h.symm (by simp [marked])
  | cons e es ih =>
    obtain ⟨he, hes⟩ := List.pairwise_cons.1 hes
    rw [marked] at h
    split at h
    · -- put off
      rename_i hput
      obtain ⟨l, hl, hle⟩ := (Option.any_eq_true _ _).1 hput
      obtain ⟨g, hg, rfl, hstart⟩ := hlast l hl
      cases before with
      | nil =>
        cases h
        exact ⟨g, by simpa using hg, hstart f (List.mem_cons_self ..), by simpa using hle⟩
      | cons m before =>
        obtain ⟨rfl, hrest⟩ := List.cons.inj h
        have hnext := ih (done ++ [(e, false)]) hes (fun l hl => ?_) hrest
        · simpa using hnext
        · obtain ⟨g, hg, hstop, hstart⟩ := hlast l hl
          exact ⟨g, by simpa using hg, hstop, fun f hf => hstart f (List.mem_cons_of_mem _ hf)⟩
    · -- applied
      cases before with
      | nil => cases h
      | cons m before =>
        obtain ⟨rfl, hrest⟩ := List.cons.inj h
        have hnext := ih (done ++ [(e, true)]) hes (fun l hl => ?_) hrest
        · simpa using hnext
        · cases hl
          refine ⟨e, by simp, rfl, fun f hf => ?_⟩
          have := Range.le_iff.1 (he f hf)
          omega

/-! ### Choices -/

/-- Which of some edits are applied: all edits stand in order, at least one character is between any
two applied ones, and an edit that is put off starts within an applied one before it. -/
structure Choice (edits : List Edit) (marks : List (Edit × Bool)) : Prop where
  reorders : Reorders edits (marks.map Prod.fst)
  sorted : (marks.map Prod.fst).Pairwise fun e f => e.range.le f.range = true
  apart : (applied marks).Pairwise Apart
  covered : ∀ before f after, marks = before ++ (f, false) :: after →
    ∃ g ∈ applied before, g.range.start ≤ f.range.start ∧ f.range.start ≤ g.range.stop

lemma choice_marked {edits : List Edit} (hedits : ∀ e ∈ edits, e.range.start ≤ e.range.stop) :
    Choice edits (marked none (inOrder edits)) where
  reorders := by simpa using reorders_inOrder edits
  sorted := by simpa using pairwise_inOrder edits
  apart := (apart_marked fun e he => hedits e ((inOrder_perm edits).subset he)).2
  covered before f after h := by
    have hcovered := covered_marked [] (pairwise_inOrder edits)
      (by simp) h
    simpa using hcovered

/-- An edit is not applied where it could be put off. -/
lemma Choice.not_covered {edits : List Edit} {before after : List (Edit × Bool)} {f : Edit}
    (h : Choice edits (before ++ (f, true) :: after)) :
    ¬∃ g ∈ applied before, g.range.start ≤ f.range.start ∧ f.range.start ≤ g.range.stop := by
  rintro ⟨g, hg, -, hle⟩
  have hapart := h.apart
  rw [applied_append, applied_cons_true] at hapart
  have hlt : g.range.stop < f.range.start :=
    (List.pairwise_append.1 hapart).2.2 g hg f (List.mem_cons_self ..)
  omega

/-- **There is one choice.**  Where two choices agree on the edits before, an applied one and one
put off cannot be the same. -/
lemma Choice.unique {edits : List Edit} {marks marks' : List (Edit × Bool)}
    (h : Choice edits marks) (h' : Choice edits marks') : marks = marks' := by
  have hfst : marks.map Prod.fst = marks'.map Prod.fst :=
    (h.reorders.symm.trans h'.reorders).eq_of_pairwise h.sorted h'.sorted
  have hagree : ∀ rest rest' before : List (Edit × Bool), marks = before ++ rest →
      marks' = before ++ rest' → rest.map Prod.fst = rest'.map Prod.fst → rest = rest' := by
    intro rest
    induction rest with
    | nil =>
      intro rest' _ _ _ hrest
      exact (List.map_eq_nil_iff.1 hrest.symm).symm
    | cons m rest ih =>
      intro rest' before hmarks hmarks' hrest
      obtain ⟨m', rest', rfl, hm, htail⟩ := List.map_eq_cons_iff.1 hrest.symm
      obtain ⟨f, b⟩ := m
      obtain ⟨f', b'⟩ := m'
      obtain rfl : f' = f := hm
      obtain rfl : b = b' := by
        cases b <;> cases b'
        · rfl
        · exact absurd (h.covered before f' rest hmarks) (hmarks' ▸ h').not_covered
        · exact absurd (h'.covered before f' rest' hmarks') (hmarks ▸ h).not_covered
        · rfl
      refine congrArg ((f', b) :: ·) (ih rest' (before ++ [(f', b)]) ?_ ?_ htail.symm)
      · rw [hmarks, List.append_assoc, List.singleton_append]
      · rw [hmarks', List.append_assoc, List.singleton_append]
  exact hagree marks marks' [] rfl rfl hfst

/-! ### What a pass makes of its choice -/

/-- A pass writes the text with the applied edits in it, counts them and tells which were put
off. -/
lemma applyFrom_marked (text : Text) (last : Option Nat) (es : List Edit) :
    applyFrom text last es =
      ⟨rewritten text (last.getD 0) text.length (applied (marked last es)),
        (applied (marked last es)).length, (putOff (marked last es)).map Edit.range⟩ := by
  induction es generalizing last with
  | nil =>
    rw [applyFrom, marked, applied_nil, rewritten, text.slice_length]
    rfl
  | cons e es ih =>
    rw [applyFrom, marked]
    split
    · rw [ih, applied_cons_false, putOff_cons_false, List.map_cons]
    · rw [ih, applied_cons_true, putOff_cons_true, rewritten, List.length_cons]
      rfl

/-- Edits that are apart from one another form a chain. -/
lemma chain_of_apart {lo hi : Nat} {es : List Edit} (hlo : lo ≤ hi)
    (hstart : ∀ e ∈ es, lo ≤ e.range.start)
    (hes : ∀ e ∈ es, e.range.start ≤ e.range.stop ∧ e.range.stop ≤ hi) (h : es.Pairwise Apart) :
    Chain lo hi es := by
  induction es generalizing lo with
  | nil => exact hlo
  | cons e es ih =>
    obtain ⟨he, h⟩ := List.pairwise_cons.1 h
    obtain ⟨hforward, hhi⟩ := hes e (List.mem_cons_self ..)
    refine ⟨hstart e (List.mem_cons_self ..), hforward, ih hhi (fun f hf => ?_)
      (fun f hf => hes f (List.mem_cons_of_mem _ hf)) h⟩
    exact Nat.le_of_lt (he f hf)

end Edit

open Edit (Choice Reorders applied putOff applyEach rewritten)

/-- **A pass applies fixes that are apart, and puts off only what starts within one of them.**  Of
the fixes in the order of their ranges it applies the ones of the only choice in which applied fixes
are apart and every other fix starts within an applied one before it.  The text is the one that the
applied fixes give one at a time, from the last one to the first: between them it stays as it was.
The pass counts the applied fixes, at least one when there is any, and tells the ranges of the
others.  Problems in another order give the same as long as fixes of one range have kept theirs. -/
theorem applyFixes_chooses {text : Text} {problems : List Problem}
    (hin : ∀ p ∈ problems, ∀ f ∈ p.fix, f.range.start ≤ f.range.stop ∧ f.range.stop ≤ text.length) :
    (∃ marks, Choice (problems.filterMap Problem.fix) marks ∧
        (∀ marks', Choice (problems.filterMap Problem.fix) marks' → marks' = marks) ∧
        (applyFixes text problems).output = applyEach text (applied marks) ∧
        (applyFixes text problems).output = rewritten text 0 text.length (applied marks) ∧
        (applyFixes text problems).count = (applied marks).length ∧
        (applyFixes text problems).deferred = (putOff marks).map Edit.range) ∧
      ((∃ p ∈ problems, p.fix ≠ none) → 0 < (applyFixes text problems).count) ∧
      ∀ problems', Reorders (problems.filterMap Problem.fix) (problems'.filterMap Problem.fix) →
        applyFixes text problems' = applyFixes text problems := by
  have hfixes : ∀ f ∈ problems.filterMap Problem.fix,
      f.range.start ≤ f.range.stop ∧ f.range.stop ≤ text.length := by
    intro f hf
    obtain ⟨p, hp, hfix⟩ := List.mem_filterMap.1 hf
    exact hin p hp f hfix
  have hchoice : Choice (problems.filterMap Problem.fix) _ :=
    Edit.choice_marked fun f hf => (hfixes f hf).1
  have hpass := Edit.applyFrom_marked text none (Edit.inOrder (problems.filterMap Problem.fix))
  refine ⟨⟨_, hchoice, fun marks' h' => h'.unique hchoice, ?_⟩, ?_, fun problems' hreorders => ?_⟩
  · generalize Edit.marked none (Edit.inOrder (problems.filterMap Problem.fix)) = marks at *
    have hchain : Edit.Chain 0 text.length (applied marks) := by
      refine Edit.chain_of_apart (Nat.zero_le _) (fun f _ => Nat.zero_le _) (fun f hf => ?_)
        hchoice.apart
      exact hfixes f (hchoice.reorders.perm.subset (Edit.applied_subset marks hf))
    have heach : applyEach text (applied marks) = rewritten text 0 text.length (applied marks) := by
      simpa using Edit.applyEach_of_chain hchain (Nat.le_refl _)
    rw [applyFixes, Edit.applyAll, hpass, heach]
    exact ⟨rfl, rfl, rfl, rfl⟩
  · rintro ⟨p, hp, hfix⟩
    exact Nat.pos_of_ne_zero fun hcount => hfix (fix_eq_none_of_count hcount p hp)
  · rw [applyFixes, applyFixes, Edit.applyAll, Edit.applyAll, Edit.inOrder_congr hreorders]

/-- Problems with an insertion at the end of the text, a fix, no fix, a fix that ends where the
other one starts, and an insertion at the start of the text. -/
def Sample.crowded : List Problem :=
  [some ⟨⟨6, 6⟩, ['!']⟩, some ⟨⟨2, 3⟩, ['C']⟩, none, some ⟨⟨0, 2⟩, ['A', 'B']⟩,
    some ⟨⟨0, 0⟩, ['^']⟩].map (⟨ruleId, [], 1, 1, 1, 1, ·⟩)

/-- In `abcdef` the insertion at the start puts off the fix that starts there, and so the next one
can be applied, and the insertion at the end. -/
theorem applyFixes_chooses_crowded :
    (∀ p ∈ Sample.crowded, ∀ f ∈ p.fix,
        f.range.start ≤ f.range.stop ∧ f.range.stop ≤ "abcdef".toList.length) ∧
      ∃ marks, Choice (Sample.crowded.filterMap Problem.fix) marks ∧ (applied marks).length = 3 ∧
        (putOff marks).map Edit.range = [⟨0, 2⟩] ∧
        applyEach "abcdef".toList (applied marks) = "^abCdef!".toList ∧
        0 < (applyFixes "abcdef".toList Sample.crowded).count := by
  have hin : ∀ p ∈ Sample.crowded, ∀ f ∈ p.fix,
      f.range.start ≤ f.range.stop ∧ f.range.stop ≤ "abcdef".toList.length := by decide +kernel
  have hpass : applyFixes "abcdef".toList Sample.crowded = ⟨"^abCdef!".toList, 3, [⟨0, 2⟩]⟩ := by
    decide +kernel
  obtain ⟨⟨marks, hchoice, -, houtput, -, hcount, hleft⟩, hpositive, -⟩ := applyFixes_chooses hin
  rw [hpass] at houtput hcount hleft
  exact ⟨hin, marks, hchoice, hcount.symm, hleft.symm, houtput.symm,
    hpositive ⟨_, List.mem_cons_self .., Option.some_ne_none _⟩⟩

end KeyOrder
