import KeyOrder.Proofs.NaturalKeys

/-!
# Numbers within names

Where two names differ in a number first, the natural order compares the numbers, however they are
written and whatever stands around them, and where the numbers are the same it goes on with what
follows.  The reason is that a run between two names is a run of the whole: the first name does not
end with a digit and the second does not begin with one, so the whole is cut where they are cut and
at the run.

A run over the limit in the names around a number leaves them without a key, and the comparison
fails before the numbers count.
-/

namespace KeyOrder

namespace Natural

/-- A number written in decimal after some zeros. -/
def numeral (zeros n : Nat) : CodePoints := List.replicate zeros '0'.toNat ++ decimal n

/-- A number between two names, written after some zeros. -/
def framed (p : Name) (zeros n : Nat) (q : Name) : Name := p ++ (numeral zeros n ++ q)

lemma value_append (ds es : CodePoints) :
    value (ds ++ es) = es.foldl (fun n d => 10 * n + (d - '0'.toNat)) (value ds) :=
  List.foldl_append

@[simp] lemma value_numeral (zeros n : Nat) : value (numeral zeros n) = n := by
  rw [numeral, value_append, value_replicate_zero]
  exact value_decimal n

lemma isRun_numeral (zeros n : Nat) : IsRun (numeral zeros n) := by
  obtain ⟨hne, hdigits⟩ := isRun_decimal n
  refine ⟨by simp [numeral, hne], fun d hd => ?_⟩
  rcases List.mem_append.1 hd with hd | hd
  · rw [List.eq_of_mem_replicate hd]
    rfl
  · exact hdigits d hd

end Natural

namespace NaturalKey

open Natural

/-! ### A number between two names -/

/-- The key of a name that is put together from two names and a number between them. -/
def around (before : NaturalKey) (n : Nat) (after : NaturalKey) : NaturalKey :=
  ⟨before.text, before.rest ++ (n, after.text) :: after.rest⟩

lemma compareRest_append (zs xs ys : List (Nat × Name)) :
    compareRest (zs ++ xs) (zs ++ ys) = compareRest xs ys := by
  induction zs with
  | nil => rfl
  | cons z zs ih => simp [compareRest, ih]

/-- After equal beginnings the numbers are compared, and then what follows them. -/
lemma cmp_around (before a b : NaturalKey) (m n : Nat) :
    (before.around m a).cmp (before.around n b) = (compare m n).then (a.cmp b) := by
  simp [around, cmp, compareRest_append, compareRest]

/-- A name with a run between two names is cut where they are cut and at the run. -/
lemma cut_append_run {p q : Name} {ds : CodePoints} (hds : IsRun ds)
    (hp : ∀ c ∈ p.getLast?, isDigit c = false) (hq : ∀ c ∈ q.head?, isDigit c = false) :
    cut (p ++ (ds ++ q)) =
      ⟨(cut p).text, (cut p).runs ++ (ds, (cut q).text) :: (cut q).runs⟩ := by
  have hexactp := exact_cut p
  have hexactq := exact_cut q
  have hfirst : (cut q).text = [] → (cut q).runs = [] := by
    intro hempty
    refine hexactq.runs.eq_nil fun c hc => hq c ?_
    rwa [← join_cut q, Cut.join, hempty]
  have hlast : ∀ r ∈ (cut p).runs, r.2 ≠ [] := by
    refine hexactp.runs.text_ne_nil fun c hc => hp c ?_
    have hne : joinRuns (cut p).runs ≠ [] := by
      rintro hempty
      simp [hempty] at hc
    rwa [← join_cut p, Cut.join, List.getLast?_append_of_ne_nil _ hne]
  have hexact : Cut.Exact ⟨(cut p).text, (cut p).runs ++ (ds, (cut q).text) :: (cut q).runs⟩ :=
    ⟨hexactp.text, hexactp.runs.append hlast ⟨hds, hexactq.text, hfirst, hexactq.runs⟩⟩
  rw [← cut_join hexact]
  congr 1
  conv_lhs => rw [← join_cut p, ← join_cut q]
  simp [Cut.join, joinRuns]

/-- The key of a name with a run between two names, the run being within the limit: it fails where
they fail. -/
lemma of_around {p q : Name} {ds : CodePoints} (hds : IsRun ds)
    (hp : ∀ c ∈ p.getLast?, isDigit c = false) (hq : ∀ c ∈ q.head?, isDigit c = false)
    (hlimit : ds.length ≤ digitLimit) : of (p ++ (ds ++ q)) = do
      let kp ← of p
      let kq ← of q
      return kp.around (value ds) kq := by
  have hcut := cut_append_run hds hp hq
  have hover : overLong? (p ++ (ds ++ q)) = (overLong? p).or (overLong? q) := by
    rw [overLong?, hcut, List.find?_append, List.find?_cons_of_neg (by simpa using hlimit),
      Option.map_or]
    rfl
  rw [of, of, of, hover]
  cases overLong? p with
  | some e => rfl
  | none =>
    cases overLong? q with
    | some e => rfl
    | none => simp [hcut, ofCut, around, pure, Except.pure, bind, Except.bind]

end NaturalKey

namespace Order

open Natural

lemma check_ascendingNatural (a b : Name) : ascendingNatural.check a b = do
    let ka ← NaturalKey.of a
    let kb ← NaturalKey.of b
    return (ka.cmp kb).isLE := by
  rw [check, key_ascendingNatural, key_ascendingNatural]
  cases NaturalKey.of a with
  | error e => rfl
  | ok ka =>
    cases NaturalKey.of b with
    | error e => rfl
    | ok kb => rfl

/-- Comparing two runs after the same name: the names around them must have keys, and then the
numbers decide before what follows does. -/
lemma check_around {p q r : Name} {ds es : CodePoints} (hds : IsRun ds) (hes : IsRun es)
    (hp : ∀ c ∈ p.getLast?, isDigit c = false) (hq : ∀ c ∈ q.head?, isDigit c = false)
    (hr : ∀ c ∈ r.head?, isDigit c = false) (hdlimit : ds.length ≤ digitLimit)
    (helimit : es.length ≤ digitLimit) :
    ascendingNatural.check (p ++ (ds ++ q)) (p ++ (es ++ r)) = do
      let _ ← NaturalKey.of p
      let kq ← NaturalKey.of q
      let kr ← NaturalKey.of r
      return ((compare (value ds) (value es)).then (kq.cmp kr)).isLE := by
  rw [check_ascendingNatural, NaturalKey.of_around hds hp hq hdlimit,
    NaturalKey.of_around hes hp hr helimit]
  cases NaturalKey.of p with
  | error e => rfl
  | ok kp =>
    cases NaturalKey.of q with
    | error e => rfl
    | ok kq =>
      cases NaturalKey.of r with
      | error e => rfl
      | ok kr => exact congrArg (fun o => Except.ok (Ordering.isLE o)) (NaturalKey.cmp_around ..)

/-- **Numbers are compared by value in any context.**  After a name that does not end with a digit
and before names that do not begin with one, two numbers are compared, written with any number of
leading zeros within the limit: the smaller one comes first, and when they are equal what follows
them decides.  The names around them may hold further runs of digits, but none over the limit, for
then the comparison fails. -/
theorem check_numerals {p q r : Name} {i j m n : Nat}
    (hp : ∀ c ∈ p.getLast?, isDigit c = false) (hq : ∀ c ∈ q.head?, isDigit c = false)
    (hr : ∀ c ∈ r.head?, isDigit c = false) (hm : (numeral i m).length ≤ digitLimit)
    (hn : (numeral j n).length ≤ digitLimit) :
    (WithinLimit p → WithinLimit q → WithinLimit r →
      (m < n → ascendingNatural.check (framed p i m q) (framed p j n r) = .ok true) ∧
      (n < m → ascendingNatural.check (framed p i m q) (framed p j n r) = .ok false) ∧
      (m = n → ∃ kq kr, NaturalKey.of q = .ok kq ∧ NaturalKey.of r = .ok kr ∧
        ascendingNatural.check (framed p i m q) (framed p j n r) = .ok (kq.cmp kr).isLE)) ∧
    (¬(WithinLimit p ∧ WithinLimit q ∧ WithinLimit r) →
      ∃ e, digitLimit < e.count ∧
        ascendingNatural.check (framed p i m q) (framed p j n r) = .error e) := by
  have hcheck := check_around (isRun_numeral i m) (isRun_numeral j n) hp hq hr hm hn
  rw [value_numeral, value_numeral] at hcheck
  rcases NaturalKey.of_cases p with ⟨hpl, kp, hkp⟩ | ⟨hpl, e, he, hkp⟩
  · rcases NaturalKey.of_cases q with ⟨hql, kq, hkq⟩ | ⟨hql, e, he, hkq⟩
    · rcases NaturalKey.of_cases r with ⟨hrl, kr, hkr⟩ | ⟨hrl, e, he, hkr⟩
      · rw [hkp, hkq, hkr] at hcheck
        refine ⟨fun _ _ _ => ⟨fun hlt => ?_, fun hlt => ?_, fun heq => ⟨kq, kr, hkq, hkr, ?_⟩⟩,
          fun hover => absurd ⟨hpl, hql, hrl⟩ hover⟩
        · rw [Nat.compare_eq_lt.2 hlt] at hcheck
          exact hcheck
        · rw [Nat.compare_eq_gt.2 hlt] at hcheck
          exact hcheck
        · rw [Nat.compare_eq_eq.2 heq] at hcheck
          exact hcheck
      · rw [hkp, hkq, hkr] at hcheck
        exact ⟨fun _ _ hr => absurd hr hrl, fun _ => ⟨e, he, hcheck⟩⟩
    · rw [hkp, hkq] at hcheck
      exact ⟨fun _ hq _ => absurd hq hql, fun _ => ⟨e, he, hcheck⟩⟩
  · rw [hkp] at hcheck
    exact ⟨fun hp _ _ => absurd hp hpl, fun _ => ⟨e, he, hcheck⟩⟩

/-- `x1v007-b` and `x1v0010a`: after `x1v`, 7 comes before 10. -/
theorem check_numerals_versions :
    let p := codePoints "x1v"
    let q := codePoints "-b"
    let r := codePoints "a"
    WithinLimit p ∧ WithinLimit q ∧ WithinLimit r ∧
      ascendingNatural.check (framed p 2 7 q) (framed p 2 10 r) = .ok true := by
  intro p q r
  have hp : WithinLimit p := by decide +kernel
  have hq : WithinLimit q := by decide +kernel
  have hr : WithinLimit r := by decide +kernel
  obtain ⟨hwithin, -⟩ := check_numerals (p := p) (q := q) (r := r) (i := 2) (j := 2) (m := 7)
    (n := 10) (by decide +kernel) (by decide +kernel) (by decide +kernel) (by decide +kernel)
    (by decide +kernel)
  exact ⟨hp, hq, hr, (hwithin hp hq hr).1 (by decide)⟩

/-- A letter and then `n` ones, too many for a number. -/
lemma of_ones {n : Nat} (h : digitLimit < n) :
    NaturalKey.of (97 :: List.replicate n 49) = .error ⟨n⟩ := by
  have hrun : IsRun (List.replicate n 49) := by
    refine ⟨fun hempty => ?_, fun d hd => ?_⟩
    · rw [(List.replicate_eq_nil_iff _).1 hempty] at h
      exact absurd h (Nat.not_lt_zero _)
    · rw [List.eq_of_mem_replicate hd]
      rfl
  have hexact : Cut.Exact ⟨[97], [(List.replicate n 49, [])]⟩ :=
    ⟨by simp [DigitFree, isDigit], hrun, by simp [DigitFree], fun _ => rfl, trivial⟩
  have hcut : cut (97 :: List.replicate n 49) = ⟨[97], [(List.replicate n 49, [])]⟩ := by
    simpa [Cut.join] using cut_join hexact
  simp [NaturalKey.of, NaturalKey.overLong?, hcut, h]

/-- With a run over the limit behind it not even a smaller number can be compared: `1`, `a` and 4301
ones are on one side, and `2` on the other. -/
theorem check_fails_past_limit :
    (∀ c ∈ ([] : Name).getLast?, isDigit c = false) ∧
      (∀ c ∈ (97 :: List.replicate 4301 49 : Name).head?, isDigit c = false) ∧
      (∀ c ∈ ([] : Name).head?, isDigit c = false) ∧
      (numeral 0 1).length ≤ digitLimit ∧ (numeral 0 2).length ≤ digitLimit ∧ 1 < 2 ∧
      ascendingNatural.check (framed [] 0 1 (97 :: List.replicate 4301 49)) (framed [] 0 2 []) =
        .error ⟨4301⟩ := by
  have hq : ∀ c ∈ (97 :: List.replicate 4301 49 : Name).head?, isDigit c = false := by
    rintro c ⟨⟩
    rfl
  have hnone : ∀ c ∈ (none : Option CodePoint), isDigit c = false := nofun
  have hone : (numeral 0 1).length ≤ digitLimit := by decide +kernel
  have htwo : (numeral 0 2).length ≤ digitLimit := by decide +kernel
  refine ⟨hnone, hq, hnone, hone, htwo, by decide, ?_⟩
  have hcheck := check_around (p := []) (r := []) (isRun_numeral 0 1) (isRun_numeral 0 2) hnone hq
    hnone hone htwo
  rw [of_ones (by decide)] at hcheck
  exact hcheck

end Order

end KeyOrder
