import KeyOrder.Proofs.Comparison
import Mathlib.Data.List.TakeWhile
import Mathlib.Data.Nat.Digits.Defs

/-!
# What natural keys tell apart

A natural key keeps the texts of a name and the numbers that its runs of digits stand for.  Of a run
only the leading zeros are lost that its number does not need: without them a run is its number
written in decimal.  So a name without superfluous zeros can be spelled from the key, and two names
have one key exactly when they are the same name once the zeros are gone.

* `unpadded_eq`: the name without superfluous zeros is spelled from the key;
* `keeps_ofCut`: what the parts of a key are;
* `natural_key_loses_leading_zeros`: the form of a key, and which names have the same one.
-/

namespace KeyOrder

namespace Natural

/-! ### Numbers in decimal -/

/-- A number written in decimal. -/
def decimal (n : Nat) : CodePoints := (Nat.toDigits 10 n).map Char.toNat

/-- A run of digits without the leading zeros that its number does not need.  One digit is left. -/
def trimZeros (ds : CodePoints) : CodePoints :=
  match ds.dropWhile (· == '0'.toNat) with
  | [] => ['0'.toNat]
  | d :: rest => d :: rest

@[simp] lemma value_concat (ds : CodePoints) (d : CodePoint) :
    value (ds ++ [d]) = 10 * value ds + (d - '0'.toNat) := by
  simp [value]

/-- The number that a run of digits stands for, least significant digit first. -/
lemma value_eq_ofDigits (ds : CodePoints) :
    value ds = Nat.ofDigits 10 (ds.reverse.map (· - '0'.toNat)) := by
  induction ds using List.reverseRecOn with
  | nil => rfl
  | append_singleton ds d ih =>
    rw [value_concat, List.reverse_concat, List.map_cons, Nat.ofDigits_cons, ih, Nat.add_comm]

@[simp] lemma value_decimal (n : Nat) : value (decimal n) = n := by
  rw [value, decimal, List.foldl_map]
  exact Nat.ofDigitChars_toDigits (by decide) (by decide)

lemma value_replicate_zero (k : Nat) : value (List.replicate k '0'.toNat) = 0 := by
  induction k with
  | zero => rfl
  | succ k ih => rw [List.replicate_succ', value_concat, ih, Nat.sub_self]

lemma isRun_decimal (n : Nat) : IsRun (decimal n) := by
  refine ⟨by simp [decimal, Nat.toDigits_ne_nil], fun d hd => ?_⟩
  obtain ⟨c, hc, rfl⟩ := List.mem_map.1 hd
  have hdigit := Nat.isDigit_of_mem_toDigits (by decide) (by decide) hc
  rw [Char.isDigit, Bool.and_eq_true, decide_eq_true_iff, decide_eq_true_iff] at hdigit
  exact Unicode.isDigit_iff.2 hdigit

lemma decimal_of_isDigit {d : Nat} (h : isDigit d = true) : decimal (d - '0'.toNat) = [d] := by
  obtain ⟨hlow, hhigh⟩ := Unicode.isDigit_iff.1 h
  obtain ⟨k, hk, rfl⟩ : ∃ k < 10, d = k + 48 := ⟨d - 48, by omega, by omega⟩
  have hdigit : ∀ k < 10, decimal k = [k + 48] := by decide
  exact hdigit k hk

lemma decimal_concat {n d : Nat} (hn : n ≠ 0) (hd : isDigit d = true) :
    decimal (10 * n + (d - '0'.toNat)) = decimal n ++ [d] := by
  obtain ⟨-, hhigh⟩ := Unicode.isDigit_iff.1 hd
  have hlt : d - '0'.toNat < 10 := Nat.lt_of_le_of_lt (Nat.sub_le_sub_right hhigh _) (by decide)
  rw [← decimal_of_isDigit hd, decimal, decimal, decimal, ← List.map_append,
    Nat.toDigits_append_toDigits (by decide) (Nat.pos_of_ne_zero hn) hlt]

/-- Without superfluous zeros a run is its number written in decimal. -/
lemma trimZeros_eq_decimal {ds : CodePoints} (h : IsRun ds) :
    trimZeros ds = decimal (value ds) := by
  obtain ⟨hne, hdigits⟩ := h
  induction ds using List.reverseRecOn with
  | nil => exact absurd rfl hne
  | append_singleton ds d ih =>
    have hd : isDigit d = true := hdigits d (by simp)
    rw [value_concat]
    cases hdrop : ds.dropWhile (· == '0'.toNat) with
    | nil =>
      -- only zeros stand before the last digit
      have hzeros : ds = List.replicate ds.length '0'.toNat := by
        refine List.eq_replicate_iff.2 ⟨rfl, fun c hc => ?_⟩
        simpa using List.dropWhile_eq_nil_iff.1 hdrop c hc
      rw [hzeros, value_replicate_zero, Nat.mul_zero, Nat.zero_add, decimal_of_isDigit hd,
        ← hzeros, trimZeros, List.dropWhile_append, hdrop]
      by_cases hzero : d = '0'.toNat
      · simp [hzero]
      · simp [show ¬d = 48 from hzero]
    | cons e rest =>
      -- the first digit that is left is no zero, so the last one is only appended
      have hds : ds ≠ [] := by
        rintro rfl
        cases hdrop
      have htrim := ih hds fun c hc => hdigits c (by simp [hc])
      rw [trimZeros, hdrop] at htrim
      have hpos : value ds ≠ 0 := by
        intro hzero
        have he := List.head?_dropWhile_not (· == '0'.toNat) ds
        rw [hzero] at htrim
        rw [hdrop, show e :: rest = ['0'.toNat] from htrim] at he
        cases he
      rw [decimal_concat hpos hd, ← htrim, trimZeros, List.dropWhile_append, hdrop]
      rfl

/-- A name without superfluous zeros in any of its runs. -/
def unpadded (name : Name) : Name :=
  (stretches name).flatMap fun s => if s.any isDigit then trimZeros s else s

end Natural

namespace NaturalKey

open Natural

/-! ### Spelling keys -/

/-- The cut of the shortest name with a key: its numbers are written in decimal. -/
def spelling (key : NaturalKey) : Cut := ⟨key.text, key.rest.map fun r => (decimal r.1, r.2)⟩

/-- The key of a spelling is the key that is spelled. -/
lemma ofCut_spelling (key : NaturalKey) : ofCut key.spelling = key := by
  simp [ofCut, spelling, Function.comp_def]

lemma exact_spelling {k : Cut} (h : k.Exact) : (ofCut k).spelling.Exact := by
  have hruns : ∀ rs : List (CodePoints × Name), Alternating rs →
      Alternating (rs.map fun r => (decimal (value r.1), r.2)) := by
    intro rs hrs
    induction rs with
    | nil => trivial
    | cons r rs ih =>
      obtain ⟨-, ht, hnil, hrest⟩ := hrs
      exact ⟨isRun_decimal _, ht, fun hempty => by rw [hnil hempty]; rfl, ih hrest⟩
  refine ⟨h.text, ?_⟩
  simpa [ofCut, spelling, Function.comp_def] using hruns k.runs h.runs

/-- A name without superfluous zeros is spelled from its key. -/
lemma unpadded_eq (name : Name) : unpadded name = (ofCut (cut name)).spelling.join := by
  have hexact := exact_cut name
  rw [← join_cut name, unpadded, flatMap_stretches (by simp) hexact, join_cut, Cut.join, joinRuns,
    hexact.text.any_isDigit, spelling, ofCut, List.map_map, List.flatMap_map]
  refine congrArg (_ ++ ·) (List.flatMap_congr fun r hr => ?_)
  obtain ⟨hds, ht⟩ := hexact.runs.of_mem hr
  simp [hds.any_isDigit, ht.any_isDigit, trimZeros_eq_decimal hds]

/-- Names are the same without superfluous zeros when they are cut into the same key. -/
lemma unpadded_eq_iff {a b : Name} :
    unpadded a = unpadded b ↔ ofCut (cut a) = ofCut (cut b) := by
  rw [unpadded_eq, unpadded_eq]
  constructor
  · intro h
    have hcut := congrArg cut h
    rw [cut_join (exact_spelling (exact_cut a)), cut_join (exact_spelling (exact_cut b))] at hcut
    rw [← ofCut_spelling (ofCut (cut a)), hcut, ofCut_spelling]
  · intro h
    rw [h]

/-! ### Equal keys -/

lemma compareRest_eq_iff {xs ys : List (Nat × Name)} : compareRest xs ys = .eq ↔ xs = ys := by
  induction xs generalizing ys with
  | nil => cases ys <;> simp [compareRest]
  | cons x xs ih =>
    cases ys with
    | nil => simp [compareRest]
    | cons y ys => simp [compareRest, ih, Ordering.then_eq_eq, Prod.ext_iff, and_assoc]

lemma cmp_eq_iff {a b : NaturalKey} : a.cmp b = .eq ↔ a = b := by
  obtain ⟨s, xs⟩ := a
  obtain ⟨t, ys⟩ := b
  simp [cmp, Ordering.then_eq_eq, compareRest_eq_iff]

/-! ### The parts of a key and the runs of its name -/

/-- Parts put together to a name, with runs in the places of the numbers. -/
def refill : List Part → List CodePoints → Name
  | [], _ => []
  | .text t :: ps, rs => t ++ refill ps rs
  | .number _ :: ps, rs => rs.headD [] ++ refill ps rs.tail

/-- What a sequence of parts keeps of a name: texts without digits stand at the even places, only
the first and the last of which may be empty, and the numbers of the runs at the odd ones. -/
structure Keeps (name : Name) (ps : List Part) : Prop where
  odd : ps.length = 2 * (digitRuns name).length + 1
  text : ∀ i, 2 * i < ps.length → ∃ t, ps[2 * i]? = some (.text t) ∧ DigitFree t ∧
    (t = [] → i = 0 ∨ 2 * i + 1 = ps.length)
  number : ∀ (i : Nat) (ds : CodePoints), (digitRuns name)[i]? = some ds →
    ps[2 * i + 1]? = some (.number (Nat.ofDigits 10 (ds.reverse.map (· - '0'.toNat))))
  refilled : refill ps (digitRuns name) = name

lemma refill_parts (k : Cut) : refill (ofCut k).parts (k.runs.map Prod.fst) = k.join := by
  obtain ⟨text, runs⟩ := k
  simp only [ofCut, parts, refill, Cut.join]
  congr 1
  induction runs with
  | nil => rfl
  | cons r rs ih => simpa [refill] using ih

lemma last_of_text_eq_nil {rs : List (CodePoints × Name)} (h : Alternating rs) {i : Nat}
    {r : CodePoints × Name} (hr : rs[i]? = some r) (hempty : r.2 = []) : i + 1 = rs.length := by
  induction rs generalizing i with
  | nil => cases hr
  | cons s rs ih =>
    obtain ⟨-, -, hnil, hrest⟩ := h
    cases i with
    | zero =>
      cases hr
      rw [hnil hempty]
      rfl
    | succ i => rw [ih hrest hr, List.length_cons]

/-- The key of a name keeps all of it but leading zeros. -/
lemma keeps_ofCut (name : Name) : Keeps name (ofCut (cut name)).parts := by
  have hexact := exact_cut name
  have hlength : (ofCut (cut name)).rest.length = (cut name).runs.length := List.length_map _
  refine ⟨?_, ?_, ?_, ?_⟩
  · rw [length_parts, hlength, digitRuns_eq, List.length_map]
  · intro i hi
    cases i with
    | zero => exact ⟨_, parts_zero, hexact.text, fun _ => .inl rfl⟩
    | succ i =>
      rw [length_parts, hlength] at hi
      obtain ⟨r, hr⟩ : ∃ r, (cut name).runs[i]? = some r :=
        ⟨_, List.getElem?_eq_getElem (by omega)⟩
      refine ⟨r.2, ?_, (hexact.runs.of_mem (List.mem_of_getElem? hr)).2, fun hempty => .inr ?_⟩
      · rw [Nat.mul_succ, parts_text, ofCut, List.getElem?_map, hr]
        rfl
      · rw [length_parts, hlength, ← last_of_text_eq_nil hexact.runs hr hempty]
  · intro i ds hds
    rw [digitRuns_eq, List.getElem?_map] at hds
    obtain ⟨r, hr, rfl⟩ := Option.map_eq_some_iff.1 hds
    rw [parts_number, ofCut, List.getElem?_map, hr, ← value_eq_ofDigits]
    rfl
  · rw [digitRuns_eq, refill_parts, join_cut]

end NaturalKey

namespace Order

/-- The ascending natural order. -/
def ascendingNatural : Order := ⟨.ascending, false, true⟩

lemma key_ascendingNatural (name : Name) :
    ascendingNatural.key name = (NaturalKey.of name).map .natural := rfl

lemma compareNames_ascendingNatural {a b : Name} {r : Ordering} :
    ascendingNatural.compareNames a b = .ok r ↔
      ∃ ka kb, NaturalKey.of a = .ok ka ∧ NaturalKey.of b = .ok kb ∧ ka.cmp kb = r := by
  simp only [compareNames_eq_ok, key_ascendingNatural, Outcome.map_eq_ok]
  constructor
  · rintro ⟨_, _, ⟨ka, ha, rfl⟩, ⟨kb, hb, rfl⟩, hr⟩
    exact ⟨ka, kb, ha, hb, hr⟩
  · rintro ⟨ka, kb, ha, hb, hr⟩
    exact ⟨_, _, ⟨ka, ha, rfl⟩, ⟨kb, hb, rfl⟩, hr⟩

end Order

/-- **A natural key loses exactly the leading zeros.**  A name whose runs are within the limit has a
key, whose parts are the texts between the runs and the numbers of the runs in turn; with the runs
put back in their places they are the name again.  Two names have one key, and are equal in the
natural order, exactly when both are within the limit and they are the same name once the
superfluous zeros of all runs are gone. -/
theorem natural_key_loses_leading_zeros :
    (∀ name, WithinLimit name →
      ∃ key, NaturalKey.of name = .ok key ∧ NaturalKey.Keeps name key.parts) ∧
    ∀ a b,
      ((∃ key, NaturalKey.of a = .ok key ∧ NaturalKey.of b = .ok key) ↔
        WithinLimit a ∧ WithinLimit b ∧ Natural.unpadded a = Natural.unpadded b) ∧
      (Order.ascendingNatural.compareNames a b = .ok .eq ↔
        WithinLimit a ∧ WithinLimit b ∧ Natural.unpadded a = Natural.unpadded b) := by
  refine ⟨fun name h => ⟨_, NaturalKey.of_eq_ok.2 ⟨h, rfl⟩, NaturalKey.keeps_ofCut name⟩,
    fun a b => ?_⟩
  have hkeys : (∃ key, NaturalKey.of a = .ok key ∧ NaturalKey.of b = .ok key) ↔
      WithinLimit a ∧ WithinLimit b ∧ Natural.unpadded a = Natural.unpadded b := by
    simp only [NaturalKey.of_eq_ok, NaturalKey.unpadded_eq_iff]
    constructor
    · rintro ⟨key, ⟨ha, hka⟩, hb, hkb⟩
      exact ⟨ha, hb, hka.trans hkb.symm⟩
    · rintro ⟨ha, hb, hkey⟩
      exact ⟨_, ⟨ha, hkey⟩, hb, rfl⟩
  refine ⟨hkeys, ?_⟩
  rw [← hkeys, Order.compareNames_ascendingNatural]
  constructor
  · rintro ⟨ka, kb, ha, hb, heq⟩
    obtain rfl := NaturalKey.cmp_eq_iff.1 heq
    exact ⟨ka, ha, hb⟩
  · rintro ⟨key, ha, hb⟩
    exact ⟨key, key, ha, hb, NaturalKey.cmp_eq_iff.2 rfl⟩

/-- The name `007a0b٣00`, in which an Arabic digit belongs to a text, and `7a00b٣0` have one key. -/
theorem natural_key_loses_leading_zeros_mixed :
    let a : Name := [48, 48, 55, 97, 48, 98, 0x663, 48, 48]
    let b : Name := [55, 97, 48, 48, 98, 0x663, 48]
    WithinLimit a ∧ WithinLimit b ∧ Natural.unpadded a = Natural.unpadded b ∧
      (∃ key, NaturalKey.of a = .ok key ∧ NaturalKey.of b = .ok key ∧
        NaturalKey.Keeps a key.parts) ∧
      Order.ascendingNatural.compareNames a b = .ok .eq := by
  intro a b
  have ha : WithinLimit a := by decide +kernel
  have hb : WithinLimit b := by decide +kernel
  have hsame : Natural.unpadded a = Natural.unpadded b := by decide +kernel
  obtain ⟨hform, heq⟩ := natural_key_loses_leading_zeros
  obtain ⟨key, hkey, hkeeps⟩ := hform a ha
  obtain ⟨key', hkey', hb'⟩ := (heq a b).1.2 ⟨ha, hb, hsame⟩
  obtain rfl : key = key' := Except.ok.inj (hkey.symm.trans hkey')
  exact ⟨ha, hb, hsame, ⟨key, hkey, hb', hkeeps⟩, (heq a b).2.2 ⟨ha, hb, hsame⟩⟩

end KeyOrder
