import KeyOrder.Fix
import KeyOrder.Proofs.Arrangement

/-!
# Keys that are equal when the program runs

A dict display may give one key twice, and then its last entry with the key counts.  Sorting keeps
the order of entries of equal names, so nothing changes as long as equal keys have equal names.
They do when both are integers or integral floats, or when no number is among them.  But a boolean
equals a number and has the name that it is displayed by, and so has an imaginary zero: `True`, `1`
and `1.0` are one key under two names, `0j` and `0` another one, and sorting may swap them.

* `Constant.name_of_keyValue`: the name of a constant, by the key that it is and its form;
* `fix_keeps_equal_keys`: the entries of a key keep their order, numbers of different forms apart;
* `fix_swaps_true_and_one`: a display in which such a pair changes places.
-/

namespace KeyOrder

/-- The strings, byte strings, natural numbers and `None` as keys. -/
inductive KeyValue where
  | text (s : CodePoints)
  | bytes (b : List Nat)
  | number (n : Nat)
  | none
deriving Repr, DecidableEq

/-- The forms of a number that is a key. -/
inductive NumberForm where
  /-- An integer or a float. -/
  | real
  | boolean
  | imaginary
deriving Repr, DecidableEq

/-- The name of a key, where it is a number in the given form. -/
def KeyValue.name : KeyValue → NumberForm → Name
  | text s, _ => s
  | bytes b, _ => Quoted.bytes b
  | number n, .real => codePoints (toString n)
  | number n, .boolean => codePoints (if n = 1 then "True" else "False")
  | number _, .imaginary => codePoints "0j"
  | none, _ => codePoints "None"

namespace Constant

/-- The key that a constant is.  Numbers are compared by value: a boolean is the number one or zero,
a float is a number when it is integral, and an imaginary number when it is zero.  Any other float
or imaginary number equals no key of these kinds, and `...` neither. -/
def keyValue? : Constant → Option KeyValue
  | string s => some (.text s)
  | bytes b => some (.bytes b)
  | integer n => some (.number n)
  | float x => x.toNat?.map .number
  | imaginary x => if x.toNat? = some 0 then some (.number 0) else Option.none
  | boolean b => some (.number b.toNat)
  | none => some .none
  | ellipsis => Option.none

/-- The form of a constant that is a number. -/
def numberForm : Constant → NumberForm
  | boolean _ => .boolean
  | imaginary _ => .imaginary
  | _ => .real

lemma write_imaginary_of_zero {x : Binary64} (h : x.toNat? = some 0) :
    FloatNotation.imaginary.write x = "0" := by
  cases x with
  | infinite => cases h
  | finite m e =>
    have hm : m = 0 := by
      rw [Binary64.toNat?] at h
      split at h
      · exact (Nat.mul_eq_zero.1 (Option.some_inj.1 h)).resolve_right
          (Nat.pos_iff_ne_zero.1 (Nat.two_pow_pos _))
      · split at h
        · rename_i hmod
          -- neither a quotient nor a remainder is left
          have hdiv := Option.some_inj.1 h
          rw [← Nat.div_add_mod m (Nat.pow 2 (-e).toNat), hdiv, hmod, Nat.mul_zero]
        · cases h
    rw [hm]
    rfl

/-- The name of a constant is told by the key that it is and by its form. -/
lemma name_of_keyValue {c : Constant} {v : KeyValue} {n : Name} (hv : c.keyValue? = some v)
    (hn : c.name = .ok n) : n = v.name c.numberForm := by
  cases c with
  | string s | bytes b | none =>
    cases hv
    cases hn
    rfl
  | boolean b =>
    cases hv
    cases hn
    cases b <;> rfl
  | integer k =>
    cases hv
    rw [name] at hn
    split at hn
    · cases hn
    · cases hn
      rfl
  | float x =>
    obtain ⟨k, hk, rfl⟩ := Option.map_eq_some_iff.1 hv
    rw [name, hk] at hn
    cases hn
    rfl
  | imaginary x =>
    rw [keyValue?] at hv
    split at hv
    · rename_i hzero
      cases hv
      rw [name, write_imaginary_of_zero hzero] at hn
      cases hn
      rfl
    · cases hv
  | ellipsis => cases hv

end Constant

namespace Entry

/-- The key of a property, where it is known without running the program: a constant, a formatted
string without fields, or a keyword. -/
def keyValue? (e : Entry) : Option KeyValue :=
  match e.kind, e.key with
  | .property, some (.keyword n) => some (.text n)
  | .property, some (.expression (.mk (.constant c) _ _)) => c.keyValue?
  | .property, some (.expression (.mk .template _ parts)) => (templateText? parts).map .text
  | _, _ => none

/-- The form of the key of an entry, where it is a number. -/
def numberForm (e : Entry) : NumberForm :=
  match e.key with
  | some (.expression (.mk (.constant c) _ _)) => c.numberForm
  | _ => .real

lemma kind_of_keyValue {e : Entry} {v : KeyValue} (h : e.keyValue? = some v) :
    e.kind ≠ .spread := by
  intro hkind
  rw [keyValue?, hkind] at h
  cases h

/-- The name of an entry is told by its key and the form of this key. -/
lemma name_of_keyValue {e : Entry} {v : KeyValue} {n : Option Name} (hv : e.keyValue? = some v)
    (hn : e.name = .ok n) : n = some (v.name e.numberForm) := by
  unfold keyValue? at hv
  split at hv
  · rename_i hkey
    cases hv
    rw [name, hkey] at hn
    cases hn
    rfl
  · rename_i hkey
    rw [name, hkey] at hn
    obtain ⟨m, hm, rfl⟩ := Outcome.map_eq_ok.1 hn
    rw [Constant.name_of_keyValue hv hm, numberForm, hkey]
  · rename_i hkey
    obtain ⟨s, hs, rfl⟩ := Option.map_eq_some_iff.1 hv
    rw [name, hkey] at hn
    cases hn
    exact hs
  · cases hv

end Entry

/-- The entry that counts for a key: the last one with it. -/
def winner? (entries : List Entry) (v : KeyValue) : Option Entry :=
  (entries.filter fun e => e.keyValue? = some v).getLast?

/-! ### Sorting keeps the order of equal names -/

lemma segmentOf_mono {entries : List Entry} {i j : Fin entries.length} (hij : i ≤ j) :
    segmentOf entries i ≤ segmentOf entries j := by
  refine List.Sublist.countP_le ?_
  exact (List.take_prefix_take_left hij).sublist

namespace Sorts

variable {o : Order} {entries : List Entry} {σ : Equiv.Perm (Fin entries.length)}

/-- Entries of different segments keep their order. -/
lemma symm_lt_of_segment_lt (hσ : Sorts o entries σ) {i j : Fin entries.length}
    (hij : segmentOf entries i < segmentOf entries j) : σ.symm i < σ.symm j := by
  by_contra hle
  have hmono := segmentOf_mono (Nat.le_of_not_lt hle)
  rw [← hσ.segment (σ.symm i), ← hσ.segment (σ.symm j), σ.apply_symm_apply,
    σ.apply_symm_apply] at hmono
  omega

/-- Entries of one segment that have one name keep their order. -/
lemma symm_lt_of_name_eq (hσ : Sorts o entries σ) {i j : Fin entries.length} (hij : i < j)
    (hsegment : segmentOf entries i = segmentOf entries j)
    (hi : (entries.get i).kind ≠ .spread) (hj : (entries.get j).kind ≠ .spread)
    (hname : (entries.get i).name = (entries.get j).name) : σ.symm i < σ.symm j := by
  by_cases hnamed : ∃ n, (entries.get i).Named n
  · obtain ⟨n, hn⟩ := hnamed
    have hn' : (entries.get j).Named n := ⟨hj, hname ▸ hn.2⟩
    by_contra hle
    have hne : σ.symm j ≠ σ.symm i := fun heq => Fin.ne_of_gt hij (σ.symm.injective heq)
    have hlt : σ.symm j < σ.symm i := lt_of_le_of_ne (Nat.le_of_not_lt hle) hne
    have hsame : segmentOf entries (σ.symm j) = segmentOf entries (σ.symm i) := by
      rw [← hσ.segment, ← hσ.segment (σ.symm i), σ.apply_symm_apply, σ.apply_symm_apply, hsegment]
    -- were the later one put first, equal names would not have kept their order
    rw [← σ.apply_symm_apply i] at hn
    rw [← σ.apply_symm_apply j] at hn'
    have hcheck := hσ.sorted _ _ n n hlt hsame hn' hn
    have hback := hσ.stable _ _ n n hlt hsame hn' hn hcheck
    rw [σ.apply_symm_apply, σ.apply_symm_apply] at hback
    exact Nat.lt_asymm hij hback
  · -- entries without a name stay
    have hnamed' : ¬∃ n, (entries.get j).Named n := fun ⟨n, hn⟩ =>
      hnamed ⟨n, hi, hname ▸ hn.2⟩
    rw [σ.symm_apply_eq.2 (hσ.fixed i hnamed).symm, σ.symm_apply_eq.2 (hσ.fixed j hnamed').symm]
    exact hij

end Sorts

/-- A permutation that keeps the order of the entries with a property leaves their list as it is. -/
lemma filter_map_perm {entries : List Entry} {σ : Equiv.Perm (Fin entries.length)}
    {p : Entry → Bool} (h : ∀ i j, i < j → p (entries.get i) = true → p (entries.get j) = true →
      σ.symm i < σ.symm j) :
    ((List.finRange entries.length).map fun i => entries.get (σ i)).filter p =
      entries.filter p := by
  have hold : entries.filter p =
      ((List.finRange entries.length).filter fun i => p (entries.get i)).map entries.get := by
    conv => lhs; rw [← List.map_get_finRange entries]
    rw [List.filter_map]
    rfl
  have hnew : ((List.finRange entries.length).map fun i => entries.get (σ i)).filter p =
      (((List.finRange entries.length).map σ).filter fun i => p (entries.get i)).map
        entries.get := by
    rw [List.filter_map, List.filter_map, List.map_map]
    rfl
  rw [hold, hnew]
  congr 1
  -- both lists have the same indices, in increasing order
  have hperm : ((List.finRange entries.length).map σ).Perm (List.finRange entries.length) := by
    refine (List.perm_ext_iff_of_nodup ((List.nodup_finRange _).map σ.injective)
      (List.nodup_finRange _)).2 fun i => ?_
    simpa using ⟨σ.symm i, σ.apply_symm_apply i⟩
  refine (hperm.filter _).eq_of_pairwise (fun i j _ _ hij hji => ?_) ?_
    ((List.pairwise_lt_finRange _).filter _)
  · exact absurd hij (Nat.lt_asymm hji)
  · rw [List.pairwise_filter, List.pairwise_map]
    refine (List.pairwise_lt_finRange _).imp fun {a b} hab ha hb => ?_
    by_contra hle
    have hne : σ b ≠ σ a := fun heq => Fin.ne_of_gt hab (σ.injective heq)
    have hlt := h _ _ (lt_of_le_of_ne (Nat.le_of_not_lt hle) hne) hb ha
    rw [σ.symm_apply_apply, σ.symm_apply_apply] at hlt
    exact Nat.lt_asymm hab hlt

/-! ### Fixes and equal keys -/

/-- When a container is relocated, the names of all its entries are found. -/
lemma Relocation.exists_name_of_edits {src : Source} {o : Order} {k : Container} {es : List Edit}
    (h : edits src o k = .ok es) {e : Entry} (he : e ∈ k.entries) (hkind : e.kind ≠ .spread) :
    ∃ n, e.name = .ok n := by
  obtain ⟨ess, hess, -⟩ := Outcome.bind_eq_ok.1 h
  have hmem : e ∈ (segments k.entries).flatten := by
    rw [segments, flatten_splitAt]
    exact List.mem_filter.2 ⟨he, by simpa using hkind⟩
  obtain ⟨segment, hsegment, he⟩ := List.mem_flatten.1 hmem
  obtain ⟨here, hhere⟩ := Outcome.exists_of_mapM_eq_ok hess hsegment
  obtain ⟨slots, -, hslots, -⟩ := sortSegment_eq_ok.1 hhere
  obtain ⟨names, hnames, -⟩ := Outcome.bind_eq_ok.1 (named_of_namedFrom hslots)
  exact Outcome.exists_of_mapM_eq_ok hnames he

/-- **A fix keeps the order of equal keys.**  The edits of a container move its entries to their
slots.  Two entries of a segment that have one key keep their order, unless they are numbers in
different forms.  So where a key has no such pair in a segment, the entries with this key are the
same, in the same order, after the fix, and the same one of them counts. -/
theorem fix_keeps_equal_keys {src : Source} {o : Order} {k : Container} {es : List Edit}
    (h : (Relocator.fresh.fix src o k).1 = .ok es) :
    ∃ σ : Equiv.Perm (Fin k.entries.length),
      Relocation.Moves src k.entries ((List.finRange k.entries.length).map fun i => (i, σ i)) es ∧
      (∀ i j v, i < j → segmentOf k.entries i = segmentOf k.entries j →
        (k.entries.get i).keyValue? = some v → (k.entries.get j).keyValue? = some v →
        (k.entries.get i).numberForm = (k.entries.get j).numberForm → σ.symm i < σ.symm j) ∧
      ∀ v, (∀ i j, segmentOf k.entries i = segmentOf k.entries j →
          (k.entries.get i).keyValue? = some v → (k.entries.get j).keyValue? = some v →
          (k.entries.get i).numberForm = (k.entries.get j).numberForm) →
        winner? ((List.finRange k.entries.length).map fun i => k.entries.get (σ i)) v =
          winner? k.entries v := by
  obtain ⟨σ, hσ, hmoves⟩ := Relocation.exists_sorts h
  have hkeeps : ∀ i j v, i < j → segmentOf k.entries i = segmentOf k.entries j →
      (k.entries.get i).keyValue? = some v → (k.entries.get j).keyValue? = some v →
      (k.entries.get i).numberForm = (k.entries.get j).numberForm → σ.symm i < σ.symm j := by
    intro i j v hij hsegment hi hj hform
    have hikind := Entry.kind_of_keyValue hi
    have hjkind := Entry.kind_of_keyValue hj
    obtain ⟨m, hm⟩ := Relocation.exists_name_of_edits h (List.get_mem ..) hikind
    obtain ⟨n, hn⟩ := Relocation.exists_name_of_edits h (List.get_mem ..) hjkind
    have hname : (k.entries.get i).name = (k.entries.get j).name := by
      rw [hm, hn, Entry.name_of_keyValue hi hm, Entry.name_of_keyValue hj hn, hform]
    exact hσ.symm_lt_of_name_eq hij hsegment hikind hjkind hname
  refine ⟨σ, hmoves, hkeeps, fun v hv => congrArg List.getLast? (filter_map_perm ?_)⟩
  intro i j hij hi hj
  simp only [decide_eq_true_eq] at hi hj
  rcases Nat.lt_or_eq_of_le (segmentOf_mono (Nat.le_of_lt hij)) with hlt | hsegment
  · exact hσ.symm_lt_of_segment_lt hlt
  · exact hkeeps i j v hij hsegment hi hj (hv i j hsegment hi hj)

namespace Sample

/-- The container of a text that has only one. -/
def only (text : Text) : Outcome (Source × Container) := do
  let src ← Source.ofText text
  match ← src.containers with
  | [k] => return (src, k)
  | _ => .error .misplaced

lemma only_eq_ok {text : Text} {p : Source × Container} (h : only text = .ok p) :
    Source.ofText text = .ok p.1 ∧ p.1.containers = .ok [p.2] := by
  obtain ⟨src, hsrc, h⟩ := Outcome.bind_eq_ok.1 h
  obtain ⟨ks, hks, h⟩ := Outcome.bind_eq_ok.1 h
  split at h
  · obtain rfl := Outcome.pure_eq_ok.1 h
    exact ⟨hsrc, hks⟩
  · cases h

/-- The only container of a text, its edits in ascending order and what they merge to, and the only
container of the text that this gives. -/
def fixOnly (text : Text) :
    Outcome ((Source × Container) × List Edit × Edit × (Source × Container)) := do
  let p ← only text
  let es ← (Relocator.fresh.fix p.1 ⟨.ascending, false, false⟩ p.2).1
  let m ← Outcome.ofMerge (Edit.merge es p.1.text)
  let q ← only (m.apply p.1.text)
  return (p, es, m, q)

lemma fixOnly_eq_ok {text : Text} {p q : Source × Container} {es : List Edit} {m : Edit}
    (h : fixOnly text = .ok (p, es, m, q)) :
    only text = .ok p ∧ (Relocator.fresh.fix p.1 ⟨.ascending, false, false⟩ p.2).1 = .ok es ∧
      Edit.merge es p.1.text = .ok m ∧ only (m.apply p.1.text) = .ok q := by
  obtain ⟨p', hp, h⟩ := Outcome.bind_eq_ok.1 h
  obtain ⟨es', hes, h⟩ := Outcome.bind_eq_ok.1 h
  obtain ⟨m', hm, h⟩ := Outcome.bind_eq_ok.1 h
  obtain ⟨q', hq, h⟩ := Outcome.bind_eq_ok.1 h
  cases h
  exact ⟨hp, hes, Outcome.ofMerge_eq_ok.1 hm, hq⟩

end Sample

/-- In `{True:1,1:2}` the key `1` is given twice, and the second entry counts.  The fix makes the
text `{1:2,True:1}`, in which the other entry counts. -/
theorem fix_swaps_true_and_one :
    ∃ src k es m src' k',
      Source.ofText ['\x7b', 'T', 'r', 'u', 'e', ':', '1', ',', '1', ':', '2', '\x7d'] = .ok src ∧
      src.containers = .ok [k] ∧ k.kind = .display ∧
      k.entries.map (fun e => (e.kind, e.keyValue?)) =
        [(.property, some (.number 1)), (.property, some (.number 1))] ∧
      (Relocator.fresh.fix src ⟨.ascending, false, false⟩ k).1 = .ok es ∧
      Edit.merge es src.text = .ok m ∧ Source.ofText (m.apply src.text) = .ok src' ∧
      src'.containers = .ok [k'] ∧
      (winner? k.entries (.number 1)).map (src.slice ·.range) = some ['1', ':', '2'] ∧
      (winner? k'.entries (.number 1)).map (src'.slice ·.range) =
        some ['T', 'r', 'u', 'e', ':', '1'] := by
  have hrun : (Sample.fixOnly ['\x7b', 'T', 'r', 'u', 'e', ':', '1', ',', '1', ':', '2',
      '\x7d']).toOption.map (fun r => decide (r.1.2.kind = .display) &&
        decide (r.1.2.entries.map (fun e => (e.kind, e.keyValue?)) =
          [(.property, some (.number 1)), (.property, some (.number 1))]) &&
        decide ((winner? r.1.2.entries (.number 1)).map (r.1.1.slice ·.range) =
          some ['1', ':', '2']) &&
        decide ((winner? r.2.2.2.2.entries (.number 1)).map (r.2.2.2.1.slice ·.range) =
          some ['T', 'r', 'u', 'e', ':', '1'])) = some true := by
    decide +kernel
  obtain ⟨⟨p, es, m, q⟩, hresult, hdata⟩ := Outcome.exists_of_toOption_map hrun
  obtain ⟨hp, hes, hm, hq⟩ := Sample.fixOnly_eq_ok hresult
  obtain ⟨hsrc, hks⟩ := Sample.only_eq_ok hp
  obtain ⟨hsrc', hks'⟩ := Sample.only_eq_ok hq
  simp only [Bool.and_eq_true, decide_eq_true_eq] at hdata
  obtain ⟨⟨⟨hkind, hkeys⟩, hbefore⟩, hafter⟩ := hdata
  exact ⟨p.1, p.2, es, m, q.1, q.2, hsrc, hks, hkind, hkeys, hes, hm, hsrc', hks', hbefore, hafter⟩

/-- In `{'b':1,'a':2,'b':3}` the third entry counts for `b`, and it still does when the fix has made
`{'a':2,'b':1,'b':3}` of it. -/
theorem fix_keeps_equal_keys_sample :
    ∃ src k es, Source.ofText ['\x7b', '"', 'b', '"', ':', '1', ',', '"', 'a', '"', ':', '2', ',',
        '"', 'b', '"', ':', '3', '\x7d'] = .ok src ∧ src.containers = .ok [k] ∧
      (Relocator.fresh.fix src ⟨.ascending, false, false⟩ k).1 = .ok es ∧ es.length = 2 ∧
      ∃ σ : Equiv.Perm (Fin k.entries.length), Relocation.Moves src k.entries
          ((List.finRange k.entries.length).map fun i => (i, σ i)) es ∧
        winner? ((List.finRange k.entries.length).map fun i => k.entries.get (σ i)) (.text [98]) =
          winner? k.entries (.text [98]) := by
  have hrun : (Sample.fixOnly ['\x7b', '"', 'b', '"', ':', '1', ',', '"', 'a', '"', ':', '2', ',',
      '"', 'b', '"', ':', '3', '\x7d']).toOption.map (fun r => (r.2.1.length,
        r.1.2.entries.all fun e => decide (e.numberForm = .real))) = some (2, true) := by
    decide +kernel
  obtain ⟨⟨p, es, m, q⟩, hresult, hdata⟩ := Outcome.exists_of_toOption_map hrun
  obtain ⟨hp, hes, -, -⟩ := Sample.fixOnly_eq_ok hresult
  obtain ⟨hsrc, hks⟩ := Sample.only_eq_ok hp
  obtain ⟨hlength, hforms⟩ := Prod.mk.inj hdata
  obtain ⟨σ, hmoves, -, hwinner⟩ := fix_keeps_equal_keys hes
  refine ⟨p.1, p.2, es, hsrc, hks, hes, hlength, σ, hmoves, hwinner _ fun i j _ _ _ => ?_⟩
  rw [List.all_eq_true] at hforms
  rw [of_decide_eq_true (hforms _ (List.get_mem p.2.entries i)),
    of_decide_eq_true (hforms _ (List.get_mem p.2.entries j))]

end KeyOrder
