import KeyOrder.Proofs.LetterCase
import KeyOrder.Proofs.Order

/-!
# Three-way comparison of names

Each order compares names by keys that are totally ordered, so it is a total preorder on the names
that it has keys for, and the three-way comparison that goes with it tells smaller, equal and
greater names apart.  Turning an order round swaps the two names.

A natural key is a sequence of texts and numbers in turn.  Two such sequences are compared at the
first place where they differ, and because texts stand at the even places of every key and numbers
at the odd ones, a text never meets a number there.

* `Order.compareNames_eq_ok`: the three-way comparison of names is that of their keys;
* `NaturalKey.compareParts_parts`: comparing natural keys part by part;
* `Order.check_totalPreorder` puts all of it together.
-/

namespace KeyOrder

/-! ### Natural keys as sequences -/

namespace NaturalKey

/-- Compares two parts of one kind.  A text and a number cannot be compared. -/
def Part.compare? : Part → Part → Option Ordering
  | .text s, .text t => some (compare s t)
  | .number m, .number n => some (compare m n)
  | _, _ => none

/-- Compares two sequences by the first parts in which they differ, and if there are none by their
lengths. -/
def compareParts : List Part → List Part → Option Ordering
  | [], [] => some .eq
  | [], _ :: _ => some .lt
  | _ :: _, [] => some .gt
  | p :: ps, q :: qs => if p = q then compareParts ps qs else p.compare? q

section Parts

variable {key : NaturalKey}

lemma length_parts : key.parts.length = 2 * key.rest.length + 1 := by
  obtain ⟨text, rest⟩ := key
  simp [parts, Nat.mul_comm]

lemma parts_zero : key.parts[0]? = some (.text key.text) := rfl

/-- Numbers stand at the odd places. -/
lemma parts_number (i : Nat) : key.parts[2 * i + 1]? = key.rest[i]?.map fun r => .number r.1 := by
  obtain ⟨text, rest⟩ := key
  simp only [parts, List.getElem?_cons_succ]
  induction rest generalizing i with
  | nil => rfl
  | cons r rest ih =>
    cases i with
    | zero => rfl
    | succ i => exact ih i

/-- Texts stand at the even places. -/
lemma parts_text (i : Nat) : key.parts[2 * i + 2]? = key.rest[i]?.map fun r => .text r.2 := by
  obtain ⟨text, rest⟩ := key
  simp only [parts, List.getElem?_cons_succ]
  induction rest generalizing i with
  | nil => rfl
  | cons r rest ih =>
    cases i with
    | zero => rfl
    | succ i => exact ih i

lemma parts_getElem? {i : Nat} {p : Part} (h : key.parts[i]? = some p) :
    i % 2 = 0 ∧ (∃ t, p = .text t) ∨ i % 2 = 1 ∧ ∃ n, p = .number n := by
  obtain ⟨j, rfl | rfl⟩ : ∃ j, i = 2 * j ∨ i = 2 * j + 1 := ⟨i / 2, by omega⟩
  · left
    refine ⟨by omega, ?_⟩
    cases j with
    | zero =>
      rw [Nat.mul_zero, parts_zero] at h
      exact ⟨_, (Option.some.inj h).symm⟩
    | succ j =>
      rw [Nat.mul_succ, parts_text] at h
      obtain ⟨r, -, rfl⟩ := Option.map_eq_some_iff.1 h
      exact ⟨_, rfl⟩
  · right
    refine ⟨by omega, ?_⟩
    rw [parts_number] at h
    obtain ⟨r, -, rfl⟩ := Option.map_eq_some_iff.1 h
    exact ⟨_, rfl⟩

/-- Two keys have parts of one kind at one place. -/
lemma exists_compare?_of_parts {a b : NaturalKey} {i : Nat} {p q : Part}
    (hp : a.parts[i]? = some p) (hq : b.parts[i]? = some q) : ∃ r, p.compare? q = some r := by
  rcases parts_getElem? hp with ⟨hi, s, rfl⟩ | ⟨hi, m, rfl⟩
  · rcases parts_getElem? hq with ⟨-, t, rfl⟩ | ⟨hi', -⟩
    · exact ⟨_, rfl⟩
    · omega
  · rcases parts_getElem? hq with ⟨hi', -⟩ | ⟨-, n, rfl⟩
    · omega
    · exact ⟨_, rfl⟩

end Parts

/-- Comparing sequences goes on after equal parts and is decided by parts that differ. -/
lemma compareParts_cons {p q : Part} {ps qs : List Part} {o r : Ordering}
    (hpq : p.compare? q = some o) (heq : o = .eq ↔ p = q) (h : compareParts ps qs = some r) :
    compareParts (p :: ps) (q :: qs) = some (o.then r) := by
  rw [compareParts]
  split
  · rename_i hp
    rw [heq.2 hp, h]
    rfl
  · rename_i hp
    rw [hpq]
    cases o with
    | eq => exact absurd (heq.1 rfl) hp
    | lt => rfl
    | gt => rfl

lemma compareParts_text {s t : Name} {ps qs : List Part} {r : Ordering}
    (h : compareParts ps qs = some r) :
    compareParts (.text s :: ps) (.text t :: qs) = some ((compare s t).then r) :=
  compareParts_cons rfl (by simp) h

lemma compareParts_number {m n : Nat} {ps qs : List Part} {r : Ordering}
    (h : compareParts ps qs = some r) :
    compareParts (.number m :: ps) (.number n :: qs) = some ((compare m n).then r) :=
  compareParts_cons rfl (by simp) h

/-- Keys are compared like sequences of parts, and a text never meets a number. -/
lemma compareParts_parts (a b : NaturalKey) : compareParts a.parts b.parts = some (a.cmp b) := by
  obtain ⟨s, xs⟩ := a
  obtain ⟨t, ys⟩ := b
  refine compareParts_text ?_
  induction xs generalizing ys with
  | nil => cases ys <;> rfl
  | cons x xs ih =>
    cases ys with
    | nil => rfl
    | cons y ys => exact compareParts_number (compareParts_text (ih ys))

end NaturalKey

/-! ### Orders as comparisons -/

namespace Order

/-- The comparison of keys that an order makes. -/
def compareKeys (o : Order) (a b : Key) : Ordering :=
  match o.direction with
  | .ascending => a.cmp b
  | .descending => b.cmp a

instance (o : Order) : Std.TransCmp o.compareKeys where
  eq_swap {a b} := by
    unfold compareKeys
    cases o.direction with
    | ascending => exact Key.cmp_swap a b
    | descending => exact Key.cmp_swap b a
  isLE_trans {a b c} hab hbc := by
    unfold compareKeys at *
    cases hd : o.direction with
    | ascending =>
      simp only [hd] at hab hbc
      exact Key.cmp_trans hab hbc
    | descending =>
      simp only [hd] at hab hbc
      exact Key.cmp_trans hbc hab

lemma allows_eq {o : Order} {a b : Key} : o.allows a b = (o.compareKeys a b).isLE := by
  unfold allows compareKeys
  cases o.direction <;> rfl

/-- An order turned to a direction. -/
def toward (o : Order) (d : Direction) : Order := { o with direction := d }

/-- Whether an order can compare a name: a natural order reads the runs of digits as numbers. -/
def Reads (o : Order) (name : Name) : Prop := o.natural = true → WithinLimit name

section Names

variable {o : Order} {a b c : Name}

/-- An order has keys for the names that it can compare: lower case does not lengthen a run. -/
lemma exists_key_iff : (∃ k, o.key a = .ok k) ↔ o.Reads a := by
  have hfold : WithinLimit (o.fold a) ↔ WithinLimit a := by
    unfold fold
    split
    · exact withinLimit_lower
    · exact Iff.rfl
  unfold key Reads
  split
  · rename_i hnatural
    simp only [Outcome.map_eq_ok, NaturalKey.of_eq_ok, hfold, hnatural]
    simp
  · rename_i hnatural
    simp [hnatural]

/-- A three-way comparison of names is a comparison of their keys. -/
lemma compareNames_eq_ok {r : Ordering} : o.compareNames a b = .ok r ↔
    ∃ ka kb, o.key a = .ok ka ∧ o.key b = .ok kb ∧ o.compareKeys ka kb = r := by
  have hthree : ∀ ka kb, o.key a = .ok ka → o.key b = .ok kb →
      o.compareNames a b = .ok (o.compareKeys ka kb) := by
    intro ka kb ha hb
    have hab := check_eq_ok.2 ⟨ka, kb, ha, hb, allows_eq⟩
    have hba := check_eq_ok.2 ⟨kb, ka, hb, ha, allows_eq⟩
    have hswap : o.compareKeys kb ka = (o.compareKeys ka kb).swap := Std.OrientedCmp.eq_swap
    rw [hswap] at hba
    rw [compareNames, hab, hba]
    cases o.compareKeys ka kb <;> rfl
  constructor
  · intro h
    obtain ⟨v, hv, -⟩ := Outcome.bind_eq_ok.1 h
    obtain ⟨ka, kb, ha, hb, -⟩ := check_eq_ok.1 hv
    refine ⟨ka, kb, ha, hb, ?_⟩
    rw [hthree ka kb ha hb] at h
    exact Except.ok.inj h
  · rintro ⟨ka, kb, ha, hb, rfl⟩
    exact hthree ka kb ha hb

/-- Comparing names in one direction is comparing them the other way round in the other. -/
lemma check_toward_descending :
    (o.toward .descending).check a b = (o.toward .ascending).check b a := rfl

lemma compareNames_toward_descending :
    (o.toward .descending).compareNames a b = (o.toward .ascending).compareNames b a := by
  unfold compareNames
  simp only [check_toward_descending]

/-- Names that compare equal, among those that an order can compare. -/
lemma equivalence_compareNames (o : Order) :
    Equivalence fun x y : { n : Name // o.Reads n } => o.compareNames x y = .ok .eq := by
  refine ⟨fun x => ?_, fun {x y} hxy => ?_, fun {x y z} hxy hyz => ?_⟩
  · obtain ⟨k, hk⟩ := exists_key_iff.2 x.2
    exact compareNames_eq_ok.2 ⟨k, k, hk, hk, Std.ReflCmp.compare_self⟩
  · obtain ⟨kx, ky, hx, hy, heq⟩ := compareNames_eq_ok.1 hxy
    exact compareNames_eq_ok.2 ⟨ky, kx, hy, hx, Std.OrientedCmp.eq_symm heq⟩
  · obtain ⟨kx, ky, hx, hy, hxy⟩ := compareNames_eq_ok.1 hxy
    obtain ⟨ky', kz, hy', hz, hyz⟩ := compareNames_eq_ok.1 hyz
    rw [hy] at hy'
    cases hy'
    exact compareNames_eq_ok.2 ⟨kx, kz, hx, hz, Std.TransCmp.eq_trans hxy hyz⟩

/-- A natural order compares names like the sequences that are their natural keys. -/
lemma compareNames_natural (hnatural : o.natural = true) (ha : WithinLimit a)
    (hb : WithinLimit b) : ∃ ka kb, NaturalKey.of (o.fold a) = .ok ka ∧
      NaturalKey.of (o.fold b) = .ok kb ∧
      (o.toward .ascending).compareNames a b = .ok (ka.cmp kb) := by
  have hkey : ∀ n k, (o.toward .ascending).key n = .ok k →
      ∃ kn, NaturalKey.of (o.fold n) = .ok kn ∧ Key.natural kn = k := by
    intro n k hk
    rw [key, toward, if_pos hnatural] at hk
    exact Outcome.map_eq_ok.1 hk
  obtain ⟨_, hka⟩ : ∃ k, (o.toward .ascending).key a = .ok k := exists_key_iff.2 fun _ => ha
  obtain ⟨_, hkb⟩ : ∃ k, (o.toward .ascending).key b = .ok k := exists_key_iff.2 fun _ => hb
  obtain ⟨ka, hka', rfl⟩ := hkey a _ hka
  obtain ⟨kb, hkb', rfl⟩ := hkey b _ hkb
  exact ⟨ka, kb, hka', hkb', compareNames_eq_ok.2 ⟨_, _, hka, hkb, rfl⟩⟩

/-- **Each order is a total preorder on the names that it can compare.**  The three-way comparison
is the one that goes with it: it changes sign when the names are swapped, is at most zero exactly
where the second name may follow the first, and names that it takes for equal are equivalent.  To
compare in descending order is to compare the swapped names in ascending order.  A natural order
compares the natural keys part by part, and never meets a text and a number at one place. -/
theorem check_totalPreorder (ha : o.Reads a) (hb : o.Reads b) :
    o.check a a = .ok true ∧
      (o.check a b = .ok true ∨ o.check b a = .ok true) ∧
      (o.check a b = .ok true → o.check b c = .ok true → o.check a c = .ok true) ∧
      (∃ r, o.compareNames a b = .ok r ∧ o.compareNames b a = .ok r.swap ∧
        o.check a b = .ok r.isLE) ∧
      (Equivalence fun x y : { n : Name // o.Reads n } => o.compareNames x y = .ok .eq) ∧
      ((o.toward .descending).check a b = (o.toward .ascending).check b a ∧
        (o.toward .descending).compareNames a b = (o.toward .ascending).compareNames b a) ∧
      (o.natural = true → ∃ ka kb r, NaturalKey.of (o.fold a) = .ok ka ∧
        NaturalKey.of (o.fold b) = .ok kb ∧
        (o.toward .ascending).compareNames a b = .ok r ∧
        NaturalKey.compareParts ka.parts kb.parts = some r ∧
        ∀ (i : Nat) (p q : NaturalKey.Part), ka.parts[i]? = some p → kb.parts[i]? = some q →
          ∃ s, p.compare? q = some s) := by
  obtain ⟨ka, hka⟩ := exists_key_iff.2 ha
  obtain ⟨kb, hkb⟩ := exists_key_iff.2 hb
  refine ⟨?_, ?_, check_trans, ?_, equivalence_compareNames o,
    ⟨check_toward_descending, compareNames_toward_descending⟩, fun hnatural => ?_⟩
  · have hself : o.allows ka ka = true := by simpa using o.allows_total ka ka
    exact check_eq_ok.2 ⟨ka, ka, hka, hka, hself⟩
  · rcases Bool.or_eq_true _ _ ▸ o.allows_total ka kb with hab | hba
    · exact .inl (check_eq_ok.2 ⟨ka, kb, hka, hkb, hab⟩)
    · exact .inr (check_eq_ok.2 ⟨kb, ka, hkb, hka, hba⟩)
  · refine ⟨o.compareKeys ka kb, compareNames_eq_ok.2 ⟨ka, kb, hka, hkb, rfl⟩,
      compareNames_eq_ok.2 ⟨kb, ka, hkb, hka, ?_⟩, check_eq_ok.2 ⟨ka, kb, hka, hkb, allows_eq⟩⟩
    exact Std.OrientedCmp.eq_swap
  · obtain ⟨la, lb, hla, hlb, hcompare⟩ := compareNames_natural hnatural (ha hnatural) (hb hnatural)
    exact ⟨la, lb, _, hla, hlb, hcompare, NaturalKey.compareParts_parts la lb,
      fun i p q => NaturalKey.exists_compare?_of_parts⟩

/-- The natural descending order without regard to case, on `item2` and `Item010`. -/
theorem check_totalPreorder_items :
    let o : Order := ⟨.descending, true, true⟩
    let a := codePoints "item2"
    let b := codePoints "Item010"
    (o.Reads a ∧ o.Reads b) ∧ o.check a b = .ok false ∧ o.check b a = .ok true ∧
      (∃ r, o.compareNames a b = .ok r ∧ o.compareNames b a = .ok r.swap ∧
        o.check a b = .ok r.isLE) ∧
      ∃ ka kb r, NaturalKey.of (o.fold a) = .ok ka ∧ NaturalKey.of (o.fold b) = .ok kb ∧
        (o.toward .ascending).compareNames a b = .ok r ∧
        NaturalKey.compareParts ka.parts kb.parts = some r := by
  intro o a b
  have ha : o.Reads a := fun _ => by decide +kernel
  have hb : o.Reads b := fun _ => by decide +kernel
  obtain ⟨-, -, -, hthree, -, -, hnatural⟩ := check_totalPreorder (c := a) ha hb
  obtain ⟨ka, kb, r, hka, hkb, hr, hparts, -⟩ := hnatural rfl
  exact ⟨⟨ha, hb⟩, by decide +kernel, by decide +kernel, hthree, ka, kb, r, hka, hkb, hr, hparts⟩

end Names

end Order

end KeyOrder
