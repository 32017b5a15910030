import KeyOrder.Fix
import KeyOrder.Proofs.Fixes
import KeyOrder.Proofs.LayoutDecision
import KeyOrder.Proofs.Selection
import KeyOrder.Proofs.Separation
import KeyOrder.Proofs.Weaving

/-!
# The fixes of nested containers

The fix of a container lies between its brackets, and it takes each entry whole or leaves it alone.
So the fixes of two containers of which one lies in an entry of the other are apart, or the inner
one lies inside the outer one; and a pass, which looks at the last fix applied only, applies exactly
the outermost ones.
-/

namespace KeyOrder

/-- No end of a change cuts an entry: a change lies before an entry, or after it, or replaces
it. -/
lemma Change.ends_clear_of_entry {n : Nat} {f : Fin n → Frame} {lo hi : Nat}
    (h : Frame.Sequence f lo hi) {σ : Fin n → Fin n} {x : Change} (hx : x ∈ all f σ) (i : Fin n) :
    (x.range.start ≤ (f i).start ∨ (f i).stop ≤ x.range.start) ∧
      (x.range.stop ≤ (f i).start ∨ (f i).stop ≤ x.range.stop) := by
  have hx' := (inOrder_perm f σ).symm.subset hx
  obtain ⟨hstart, hforward, hstop⟩ := fits_of_mem_inOrder h hx'
  rcases Nat.lt_trichotomy x.place (9 * i.val + 5) with hplace | hplace | hplace
  · have hbefore : x.range.stop ≤ (f i).start :=
      calc x.range.stop
        _ ≤ Frame.cuts f hi (9 * i.val + 5) := Nat.le_trans hstop (h.cuts_mono hplace)
        _ = (f i).start := Frame.cuts_eq f hi i (by omega)
    exact ⟨.inl (by omega), .inl hbefore⟩
  · rw [(eq_entry_of_place hx' hplace).2]
    exact ⟨.inl (Nat.le_refl _), .inr (Nat.le_refl _)⟩
  · have hafter : (f i).stop ≤ x.range.start :=
      calc (f i).stop
        _ = Frame.cuts f hi (9 * i.val + 6) := (Frame.cuts_eq f hi i (r := 6) (by omega)).symm
        _ ≤ x.range.start := Nat.le_trans (h.cuts_mono hplace) hstart
    exact ⟨.inr hafter, .inr (by omega)⟩

/-! ### Where the fix of a container lies -/

namespace Container

/-- A fix lies strictly inside the range of a container, and neither of its ends cuts an entry. -/
structure Holds (k : Container) (m : Edit) : Prop where
  forward : m.range.start ≤ m.range.stop
  after : k.range.start < m.range.start
  before : m.range.stop < k.range.stop
  start_clear : ∀ e ∈ k.entries, m.range.start ≤ e.range.start ∨ e.range.stop ≤ m.range.start
  stop_clear : ∀ e ∈ k.entries, m.range.stop ≤ e.range.start ∨ e.range.stop ≤ m.range.stop

/-- A container is well-formed between brackets that stand in its own range. -/
def Placed (src : Source) (k : Container) : Prop :=
  ∃ opening ∈ src.tokens.toList, k.range.start ≤ opening.range.start ∧
    ∃ closing ∈ src.tokens.toList, closing.range.stop ≤ k.range.stop ∧
      k.WellFormed src opening closing

instance (src : Source) (k : Container) : Decidable (k.Placed src) :=
  inferInstanceAs (Decidable (∃ _ ∈ _, _))

lemma Placed.holds {src : Source} {k : Container} (h : k.Placed src) {o : Order} {m : Edit}
    (hfix : k.FixedBy src o m) : k.Holds m := by
  obtain ⟨opening, hopening, hstart, closing, hclosing, hstop, h⟩ := h
  obtain ⟨es, hes, hne, hmerge⟩ := hfix
  obtain ⟨σ, m', rfl, hm', hlo, hforward, hhi⟩ := h.exists_merged hes hne
  obtain rfl : m' = m := Except.ok.inj (hm'.symm.trans hmerge)
  have hopen := h.tokens.nonempty opening hopening
  have hclose := h.tokens.nonempty closing hclosing
  -- each end of the fix is that of a change
  obtain ⟨⟨d, hd, hdstart⟩, d', hd', hdstop⟩ := Edit.exists_ends_of_merge hmerge
  obtain ⟨x, hx, rfl⟩ := List.mem_map.1 hd
  obtain ⟨x', hx', rfl⟩ := List.mem_map.1 hd'
  refine ⟨hforward, by omega, by omega, fun e he => ?_, fun e he => ?_⟩
  · obtain ⟨i, rfl⟩ := List.mem_iff_get.1 he
    rw [← hdstart]
    exact (Change.ends_clear_of_entry h.sequence hx i).1
  · obtain ⟨i, rfl⟩ := List.mem_iff_get.1 he
    rw [← hdstop]
    exact (Change.ends_clear_of_entry h.sequence hx' i).2

/-! ### Nested containers -/

/-- A container lies in one entry of another one. -/
def InEntryOf (k l : Container) : Prop :=
  ∃ e ∈ l.entries, e.range.start ≤ k.range.start ∧ k.range.stop ≤ e.range.stop

/-- Two containers are properly nested: they have nothing in common, or one lies in one entry of the
other. -/
def Nested (k l : Container) : Prop :=
  k.range.stop ≤ l.range.start ∨ l.range.stop ≤ k.range.start ∨ k.InEntryOf l ∨ l.InEntryOf k

instance (k l : Container) : Decidable (k.InEntryOf l) :=
  inferInstanceAs (Decidable (∃ _ ∈ _, _))

instance (k l : Container) : Decidable (k.Nested l) :=
  inferInstanceAs (Decidable (_ ∨ _ ∨ _ ∨ _))

variable {k l : Container} {f g : Edit}

/-- The fix of a container in an entry is apart from that of the container around, or inside it. -/
lemma InEntryOf.apart_or_inside (h : k.InEntryOf l) (hf : k.Holds f) (hg : l.Holds g) :
    Edit.Apart f g ∨ Edit.Apart g f ∨ Edit.Inside f g := by
  obtain ⟨e, he, hstart, hstop⟩ := h
  have hafter := hf.after
  have hbefore := hf.before
  rcases hg.start_clear e he with hgstart | hgstart
  · rcases hg.stop_clear e he with hgstop | hgstop
    · exact .inr (.inl (by unfold Edit.Apart; omega))
    · exact .inr (.inr ⟨by omega, by omega⟩)
  · exact .inl (by unfold Edit.Apart; omega)

/-- The fixes of nested containers are apart or one lies inside the other, and then so does its
container. -/
lemma Nested.laminar (h : k.Nested l) (hf : k.Holds f) (hg : l.Holds g) :
    Edit.Laminar f g ∧ (Edit.Inside f g → k.InEntryOf l) := by
  have hfr := hf.forward
  have hgr := hg.forward
  have hfa := hf.after
  have hga := hg.after
  have hfb := hf.before
  have hgb := hg.before
  unfold Edit.Laminar
  rcases h with h | h | h | h
  · unfold Edit.Apart Edit.Inside
    omega
  · unfold Edit.Apart Edit.Inside
    omega
  · exact ⟨by have := h.apart_or_inside hf hg; tauto, fun _ => h⟩
  · have hcases := h.apart_or_inside hg hf
    refine ⟨by tauto, fun hin => ?_⟩
    unfold Edit.Apart Edit.Inside at *
    omega

end Container

/-- The fixes that the problems of a report carry. -/
def Report.fixes (report : Report) : List Edit := report.problems.filterMap Problem.fix

section Fixed

variable {fixed : List (Container × Edit)} (hholds : ∀ p ∈ fixed, p.1.Holds p.2)
  (hpaths : fixed.Pairwise fun p q => p.1.path ≠ q.1.path)
  (hnested : ∀ p ∈ fixed, ∀ q ∈ fixed, p.1.path ≠ q.1.path → p.1.Nested q.1)

include hholds hpaths hnested

lemma pairwise_laminar_of_nested : (fixed.map Prod.snd).Pairwise Edit.Laminar := by
  refine List.pairwise_map.2 (hpaths.imp_of_mem fun {p q} hp hq hpq => ?_)
  exact ((hnested p hp q hq hpq).laminar (hholds p hp) (hholds q hq)).1

lemma inEntryOf_of_inside {p q : Container × Edit} (hp : p ∈ fixed) (hq : q ∈ fixed)
    (hpq : Edit.Inside p.2 q.2) : p.1.InEntryOf q.1 := by
  have hne : p.1.path ≠ q.1.path := by
    rcases eq_or_rel_of_mem hpaths hp hq with rfl | hne | hne
    · exact absurd hpq.1 (Nat.lt_irrefl _)
    · exact hne
    · exact hne.symm
  exact ((hnested p hp q hq hne).laminar (hholds p hp) (hholds q hq)).2 hpq

end Fixed

/-- **A pass applies exactly the outermost fixes.**  In a source whose faulty containers are in
place and properly nested, any two fixes of a check are apart by at least one character, or one lies
strictly inside the other.  A pass applies the fixes that lie in no other one and puts off the rest;
each fix that is put off lies inside one that is applied, that of a container around its own. -/
theorem applyFixes_outermost {options : Json.Value} {values : List Json.Value} {text : Text}
    {report : Report} {src : Source} {ks : List Container}
    (hvalues : Options.validate options = .ok values) (h : verify options text = .ok report)
    (hsrc : Source.ofText text = .ok src) (hks : src.containers = .ok ks)
    (hplaced : ∀ k ∈ ks, Rule.Broken (Options.configuration values) k → k.Placed src)
    (hnested : ∀ k ∈ ks, ∀ l ∈ ks, Rule.Broken (Options.configuration values) k →
      Rule.Broken (Options.configuration values) l → k.path ≠ l.path → k.Nested l) :
    report.fixes.Pairwise Edit.Laminar ∧
      applyFixes text report.problems =
        ⟨Edit.rewritten text 0 text.length
            ((Edit.inOrder report.fixes).filter (Edit.outermost report.fixes)),
          (report.fixes.filter (Edit.outermost report.fixes)).length,
          ((Edit.inOrder report.fixes).filter fun f => !Edit.outermost report.fixes f).map
            Edit.range⟩ ∧
      ∀ f ∈ report.fixes, Edit.outermost report.fixes f = false →
        ∃ g ∈ report.fixes, Edit.outermost report.fixes g = true ∧ Edit.Inside f g ∧
          ∃ k ∈ ks, ∃ l ∈ ks, k.FixedBy src (Options.configuration values).order f ∧
            l.FixedBy src (Options.configuration values).order g ∧ k.InEntryOf l := by
  obtain ⟨values', hvalues', h⟩ := Outcome.bind_eq_ok.1 h
  obtain rfl : values = values' :=
    Except.ok.inj (hvalues.symm.trans (Outcome.ofOptions_eq_ok.1 hvalues'))
  obtain ⟨src', ks', fixed, hsrc', hks', hperm, hfixed, hpaths⟩ := exists_fixed_of_lint h
  obtain rfl : src = src' := Except.ok.inj (hsrc.symm.trans hsrc')
  obtain rfl : ks = ks' := Except.ok.inj (hks.symm.trans hks')
  have hholds : ∀ p ∈ fixed, p.1.Holds p.2 := by
    intro p hp
    obtain ⟨hmem, hbroken, hfix⟩ := hfixed p hp
    exact (hplaced p.1 hmem hbroken).holds hfix
  have hpairs : ∀ p ∈ fixed, ∀ q ∈ fixed, p.1.path ≠ q.1.path → p.1.Nested q.1 := by
    intro p hp q hq hne
    obtain ⟨hp, hp', -⟩ := hfixed p hp
    obtain ⟨hq, hq', -⟩ := hfixed q hq
    exact hnested p.1 hp q.1 hq hp' hq' hne
  have hlaminar : report.fixes.Pairwise Edit.Laminar :=
    (List.Perm.pairwise_iff (fun h => Edit.Laminar.symm h) hperm).2
      (pairwise_laminar_of_nested hholds hpaths hpairs)
  have hmem : ∀ f ∈ report.fixes, ∃ p ∈ fixed, p.2 = f := fun f hf =>
    List.mem_map.1 (hperm.subset hf)
  have hforward : ∀ f ∈ report.fixes, f.range.start ≤ f.range.stop := by
    intro f hf
    obtain ⟨p, hp, rfl⟩ := hmem f hf
    exact (hholds p hp).forward
  obtain ⟨happly, hinside⟩ := Edit.applyAll_eq text hforward hlaminar
  refine ⟨hlaminar, happly, fun f hf hout => ?_⟩
  obtain ⟨g, hg, hgout, hfg⟩ := hinside f hf hout
  obtain ⟨p, hp, rfl⟩ := hmem f hf
  obtain ⟨q, hq, rfl⟩ := hmem g hg
  obtain ⟨hpk, -, hpfix⟩ := hfixed p hp
  obtain ⟨hqk, -, hqfix⟩ := hfixed q hq
  exact ⟨q.2, hg, hgout, hfg, p.1, hpk, q.1, hqk, hpfix, hqfix,
    inEntryOf_of_inside hholds hpaths hpairs hp hq hfg⟩

namespace Sample

/-- The text `{1:{3:4,2:5},0:6},{8:9,7:0}`: three displays, one of them in an entry of another. -/
def displays : Text :=
  ['\x7b', '1', ':', '\x7b', '3', ':', '4', ',', '2', ':', '5', '\x7d', ',', '0', ':', '6', '\x7d',
    ',', '\x7b', '8', ':', '9', ',', '7', ':', '0', '\x7d']

lemma exists_report_displays :
    ∃ report, verify .null displays = .ok report ∧
      (report.fixes.map Edit.range, (report.fixes.filter (Edit.outermost report.fixes)).length) =
        ([⟨4, 11⟩, ⟨1, 16⟩, ⟨19, 26⟩], 2) := by
  refine Outcome.exists_of_toOption_map ?_
  decide +kernel

lemma exists_containers_displays :
    ∃ src ks, Source.ofText displays = .ok src ∧ src.containers = .ok ks ∧
      (∀ k ∈ ks, k.Placed src) ∧ ∀ k ∈ ks, ∀ l ∈ ks, k.path ≠ l.path → k.Nested l := by
  have hlayout : (Source.ofText displays >>= fun src =>
      src.containers.map fun ks => (src, ks)).toOption.map (fun p : Source × List Container =>
        decide ((∀ k ∈ p.2, k.Placed p.1) ∧
          ∀ k ∈ p.2, ∀ l ∈ p.2, k.path ≠ l.path → k.Nested l)) = some true := by
    decide +kernel
  obtain ⟨⟨src, ks⟩, hrun, hlayout⟩ := Outcome.exists_of_toOption_map hlayout
  obtain ⟨src', hsrc, hrun⟩ := Outcome.bind_eq_ok.1 hrun
  obtain ⟨ks', hks, hpair⟩ := Outcome.map_eq_ok.1 hrun
  cases hpair
  exact ⟨src, ks, hsrc, hks, of_decide_eq_true hlayout⟩

end Sample

/-- Of the three fixes of `{1:{3:4,2:5},0:6},{8:9,7:0}` a pass applies the two outer ones and puts
off the inner one. -/
theorem applyFixes_outermost_nested :
    ∃ values report src ks, Options.validate .null = .ok values ∧
      verify .null Sample.displays = .ok report ∧
      Source.ofText Sample.displays = .ok src ∧ src.containers = .ok ks ∧
      (∀ k ∈ ks, k.Placed src) ∧ (∀ k ∈ ks, ∀ l ∈ ks, k.path ≠ l.path → k.Nested l) ∧
      report.fixes.map Edit.range = [⟨4, 11⟩, ⟨1, 16⟩, ⟨19, 26⟩] ∧
      report.fixes.Pairwise Edit.Laminar ∧
      (applyFixes Sample.displays report.problems).count = 2 := by
  obtain ⟨report, hreport, hfixes⟩ := Sample.exists_report_displays
  obtain ⟨hranges, hcount⟩ := Prod.mk.inj hfixes
  obtain ⟨src, ks, hsrc, hks, hplaced, hnested⟩ := Sample.exists_containers_displays
  obtain ⟨values, hvalues, -⟩ := Outcome.bind_eq_ok.1 hreport
  rw [Outcome.ofOptions_eq_ok] at hvalues
  obtain ⟨hlaminar, happly, -⟩ := applyFixes_outermost hvalues hreport hsrc hks
    (fun k hk _ => hplaced k hk) fun k hk l hl _ _ => hnested k hk l hl
  exact ⟨values, report, src, ks, hvalues, hreport, hsrc, hks, hplaced, hnested, hranges, hlaminar,
    by rw [happly, hcount]⟩

end KeyOrder
