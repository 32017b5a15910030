import KeyOrder.Proofs.Faults

/-!
# Which options are accepted

Options are accepted when the values that they stand for are a direction and an object of settings,
each of its kind, and nothing else.  `Options.Acceptable` says so without going through the
violations that are looked for.  What is accepted can be used: read as it is written, without a
check on the way, it gives the configuration that the rule is run with, and the order of that
configuration is found under its name.

* `violations_eq_nil_iff`: values have no violation exactly when they are acceptable;
* `ofValues?_eq_configuration`: acceptable values, read as they are written;
* `validate_accepts_exactly` puts all of it together.
-/

namespace KeyOrder

namespace Json.Number

open Binary64

/-- A finite number that is an integer vanishes with its significand, and is compared by its
value. -/
lemma float_below_iff {m v : Nat} {e : Int} (h : (finite m e).toNat? = some v) (b : Nat) :
    (v = 0 ↔ m = 0) ∧ ((float false (finite m e)).below b = true ↔ v < b) := by
  rw [toNat?] at h
  rw [below]
  by_cases he : 0 ≤ e
  · have hpos : 0 < Nat.pow 2 e.toNat := Nat.pow_pos (by decide)
    rw [if_pos he] at h ⊢
    cases h
    rw [Nat.mul_eq_zero, decide_eq_true_iff]
    exact ⟨or_iff_left (Nat.ne_of_gt hpos), Iff.rfl⟩
  · have hpos : 0 < Nat.pow 2 (-e).toNat := Nat.pow_pos (by decide)
    rw [if_neg he] at h ⊢
    by_cases hdvd : m % Nat.pow 2 (-e).toNat = 0
    · rw [if_pos hdvd] at h
      cases h
      rw [Nat.div_eq_zero_iff_lt hpos, decide_eq_true_iff, Nat.div_lt_iff_lt_mul hpos]
      refine ⟨⟨fun hlt => ?_, fun hm => hm ▸ hpos⟩, Iff.rfl⟩
      rwa [Nat.mod_eq_of_lt hlt] at hdvd
    · rw [if_neg hdvd] at h
      cases h

/-- A number that is an integer is compared by its value. -/
lemma below_iff {n : Number} {k : Int} (h : n.toInt? = some k) (b : Nat) :
    n.below b = true ↔ k < b := by
  cases n with
  | integer m =>
    cases h
    exact decide_eq_true_iff
  | float negative x =>
    cases x with
    | infinite => cases h
    | finite m e =>
      cases hv : (finite m e).toNat? with
      | none =>
        rw [toInt?, hv] at h
        cases h
      | some v =>
        rw [toInt?, hv] at h
        have hk : (if negative then -(v : Int) else v) = k := Option.some.inj h
        obtain ⟨hzero, hbelow⟩ := float_below_iff hv b
        cases negative with
        | false =>
          rw [if_neg (by decide)] at hk
          rw [hbelow, ← hk]
          exact Int.ofNat_lt.symm
        | true =>
          rw [if_pos rfl] at hk
          have hsign : (float true (finite m e)).below b = true ↔ 0 < b ∨ m ≠ 0 := by
            simp [below, isZero]
          rw [hsign, ne_eq, ← hzero, ← hk]
          omega

end Json.Number

namespace Options

open Json (Value Number)

/-! ### What may be given -/

/-- An object of settings: its fields are settings and each of them is of its kind. -/
structure IsSettings (v : Value) : Prop where
  object : ∃ fields, v = .object fields ∧ ∀ f ∈ fields, f.1 = codePoints "caseSensitive" ∨
    f.1 = codePoints "natural" ∨ f.1 = codePoints "minKeys"
  caseSensitive : ∀ w, v.field? "caseSensitive" = some w → ∃ b, w = .bool b
  natural : ∀ w, v.field? "natural" = some w → ∃ b, w = .bool b
  minKeys : ∀ w, v.field? "minKeys" = some w → ∃ n k, w = .number n ∧ n.toInt? = some k ∧ 2 ≤ k

/-- Values that the rule may be run with: at most a direction and an object of settings. -/
structure Acceptable (vs : List Value) : Prop where
  length : vs.length ≤ 2
  direction : ∀ v, vs[0]? = some v → v = .ofString "asc" ∨ v = .ofString "desc"
  settings : ∀ v, vs[1]? = some v → IsSettings v

/-! ### Violations -/

lemma direction?_isSome_iff (v : Value) :
    (direction? v).isSome = true ↔ v = .ofString "asc" ∨ v = .ofString "desc" := by
  constructor
  · intro h
    unfold direction? at h
    split at h
    · split at h
      · rename_i hasc
        exact .inl (congrArg Value.string hasc)
      · split at h
        · rename_i hdesc
          exact .inr (congrArg Value.string hdesc)
        · cases h
    · cases h
  · rintro (rfl | rfl)
    · rfl
    · rfl

lemma booleanViolations_eq_nil_iff (v : Value) (name : String) :
    booleanViolations v name = [] ↔ ∀ w, v.field? name = some w → ∃ b, w = .bool b := by
  unfold booleanViolations
  cases v.field? name with
  | none => simp
  | some w => cases w <;> simp [isBoolean]

lemma minKeysViolations_eq_nil_iff (v : Value) :
    minKeysViolations v = [] ↔ ∀ w, v.field? "minKeys" = some w →
      ∃ n k, w = .number n ∧ n.toInt? = some k ∧ 2 ≤ k := by
  unfold minKeysViolations
  cases v.field? "minKeys" with
  | none => simp
  | some w =>
    cases w with
    | number n =>
      cases hn : n.toInt? with
      | none => simp [isInteger, hn]
      | some k =>
        have hbelow : n.below 2 = false ↔ 2 ≤ k := by
          rw [← Bool.not_eq_true, Number.below_iff hn 2]
          exact Int.not_lt
        simp [isInteger, hn, hbelow]
    | _ => simp [isInteger]

lemma unexpectedNames_isEmpty_iff (fields : List (CodePoints × Value)) :
    (unexpectedNames fields).isEmpty = true ↔ ∀ f ∈ fields, f.1 = codePoints "caseSensitive" ∨
      f.1 = codePoints "natural" ∨ f.1 = codePoints "minKeys" := by
  rw [List.isEmpty_iff_length_eq_zero, unexpectedNames, sort_eq_mergeSort,
    List.length_mergeSort, List.length_eq_zero_iff, List.filter_eq_nil_iff]
  simp [settingNames, or_iff_not_imp_left]

lemma settingsViolations_eq_nil_iff (v : Value) : settingsViolations v = [] ↔ IsSettings v := by
  constructor
  · intro h
    unfold settingsViolations at h
    split at h
    · rename_i fields
      simp only [List.append_eq_nil_iff, booleanViolations_eq_nil_iff,
        minKeysViolations_eq_nil_iff] at h
      obtain ⟨⟨⟨hcase, hnatural⟩, hmin⟩, hnames⟩ := h
      refine ⟨⟨fields, rfl, (unexpectedNames_isEmpty_iff fields).1 ?_⟩, hcase, hnatural, hmin⟩
      by_contra hne
      rw [if_neg hne] at hnames
      cases hnames
    · cases h
  · rintro ⟨⟨fields, rfl, hnames⟩, hcase, hnatural, hmin⟩
    rw [settingsViolations, (booleanViolations_eq_nil_iff _ _).2 hcase,
      (booleanViolations_eq_nil_iff _ _).2 hnatural, (minKeysViolations_eq_nil_iff _).2 hmin,
      if_pos ((unexpectedNames_isEmpty_iff fields).2 hnames)]
    rfl

/-- Values have no violation exactly when they are acceptable. -/
lemma violations_eq_nil_iff (vs : List Value) : violations vs = [] ↔ Acceptable vs := by
  unfold violations
  rw [List.append_eq_nil_iff, List.append_eq_nil_iff]
  constructor
  · rintro ⟨⟨hdirection, hsettings⟩, hlength⟩
    refine ⟨?_, fun v hv => ?_, fun v hv => ?_⟩
    · by_contra hlong
      rw [if_pos (Nat.lt_of_not_le hlong)] at hlength
      cases hlength
    · rw [hv] at hdirection
      rw [← direction?_isSome_iff]
      by_contra hnone
      exact absurd ((if_neg hnone).symm.trans hdirection) nofun
    · rw [hv] at hsettings
      exact (settingsViolations_eq_nil_iff v).1 hsettings
  · intro h
    refine ⟨⟨?_, ?_⟩, if_neg (Nat.not_lt_of_le h.length)⟩
    · split
      · rename_i v hv
        exact if_pos ((direction?_isSome_iff v).2 (h.direction v hv))
      · rfl
    · split
      · rename_i v hv
        exact (settingsViolations_eq_nil_iff v).2 (h.settings v hv)
      · rfl

lemma foldl_ne_none {α : Type} {f : Option α → α → Option α} (hf : ∀ best x, f best x ≠ none)
    {xs : List α} {best : Option α} (h : best ≠ none ∨ xs ≠ []) : xs.foldl f best ≠ none := by
  induction xs generalizing best with
  | nil => exact h.resolve_right (absurd rfl)
  | cons x xs ih => exact ih (.inl (hf best x))

/-- Some violation is told as soon as there is one. -/
lemma worst?_eq_none_iff (found : List Located) : worst? found = none ↔ found = [] := by
  constructor
  · intro h
    by_contra hne
    refine foldl_ne_none (fun best v => ?_) (.inr hne) h
    split
    · exact nofun
    · split
      · exact nofun
      · exact nofun
  · rintro rfl
    rfl

lemma validate_of_values {options : Value} {vs : List Value} (h : values options = .ok vs) :
    (Acceptable vs → validate options = .ok vs) ∧
      (¬Acceptable vs → ∃ v, validate options = .error (.violation v)) := by
  rw [← violations_eq_nil_iff, ← worst?_eq_none_iff]
  constructor
  · intro hworst
    simp only [validate, h, bind, Except.bind, hworst]
    rfl
  · intro hworst
    obtain ⟨l, hl⟩ := Option.ne_none_iff_exists'.1 hworst
    refine ⟨l.violation, ?_⟩
    simp only [validate, h, bind, Except.bind, hl]

/-- A value stands for no values when it is the true boolean or a number other than zero. -/
lemma values_eq_error_iff {options : Value} {refusal : Refusal} :
    values options = .error refusal ↔ refusal = .notASequence options ∧
      (options = .bool true ∨ ∃ n, options = .number n ∧ n.isZero = false) := by
  cases options with
  | bool b =>
    cases b with
    | false => simp [values]
    | true => simpa [values] using eq_comm
  | number n =>
    cases hn : n.isZero with
    | true => simp [values, hn]
    | false => simpa [values, hn] using eq_comm
  | _ => simp [values]

lemma validate_eq_ok_iff {options : Value} {vs : List Value} :
    validate options = .ok vs ↔ values options = .ok vs ∧ Acceptable vs := by
  constructor
  · intro h
    obtain ⟨vs', hvs', -⟩ := Outcome.bind_eq_ok.1 h
    obtain ⟨haccepted, hrefused⟩ := validate_of_values hvs'
    by_cases hok : Acceptable vs'
    · obtain rfl := Except.ok.inj ((haccepted hok).symm.trans h)
      exact ⟨hvs', hok⟩
    · obtain ⟨v, hv⟩ := hrefused hok
      rw [hv] at h
      cases h
  · rintro ⟨hvs, hok⟩
    exact (validate_of_values hvs).1 hok

lemma validate_eq_notASequence_iff {options v : Value} :
    validate options = .error (.notASequence v) ↔
      v = options ∧ (options = .bool true ∨ ∃ n, options = .number n ∧ n.isZero = false) := by
  cases hvs : values options with
  | error refusal =>
    obtain ⟨rfl, hwhy⟩ := values_eq_error_iff.1 hvs
    have hvalidate : validate options = .error (.notASequence options) := by
      rw [validate, hvs]
      rfl
    rw [hvalidate, Except.error.injEq, Refusal.notASequence.injEq, and_iff_left hwhy, eq_comm]
  | ok vs =>
    -- options that stand for values are refused for a violation, if at all
    have hno : ¬(options = .bool true ∨ ∃ n, options = .number n ∧ n.isZero = false) := by
      intro hwhy
      rw [values_eq_error_iff.2 ⟨rfl, hwhy⟩] at hvs
      cases hvs
    obtain ⟨haccepted, hrefused⟩ := validate_of_values hvs
    by_cases hok : Acceptable vs
    · simp [haccepted hok, hno]
    · obtain ⟨w, hw⟩ := hrefused hok
      simp [hw, hno]

/-! ### What is accepted can be used -/

/-- Options as they are written, each with its default, and not checked in any way. -/
structure Written where
  order : Value
  caseSensitive : Value
  natural : Value
  minKeys : Value

/-- Reads values as they are written.  The second one must be an object to be read at all. -/
def Written.ofValues? (vs : List Value) : Option Written :=
  match vs[1]?.getD (.object []) with
  | .object fields =>
    some
      { order := vs[0]?.getD (.ofString "asc")
        caseSensitive := ((Value.object fields).field? "caseSensitive").getD (.bool true)
        natural := ((Value.object fields).field? "natural").getD (.bool false)
        minKeys := ((Value.object fields).field? "minKeys").getD (.number (.integer 2)) }
  | _ => none

/-- What a configuration is written as. -/
def Written.ofConfiguration (c : Configuration) : Written :=
  { order := .ofString c.direction.name
    caseSensitive := .bool c.caseSensitive
    natural := .bool c.natural
    minKeys := .number c.minKeys }

/-- A boolean setting is read as it is written. -/
lemma bool_boolean {v : Value} {name : String} (default : Bool)
    (h : ∀ w, v.field? name = some w → ∃ b, w = .bool b) :
    (v.field? name).getD (.bool default) = .bool (boolean v name default) := by
  unfold boolean
  cases hw : v.field? name with
  | none => rfl
  | some w =>
    obtain ⟨b, rfl⟩ := h w hw
    rfl

lemma isSettings_getD {vs : List Value} (h : Acceptable vs) :
    IsSettings (vs[1]?.getD (.object [])) := by
  cases hv : vs[1]? with
  | none => exact ⟨⟨[], rfl, nofun⟩, nofun, nofun, nofun⟩
  | some v => exact h.settings v hv

/-- Acceptable values, read as they are written, are the configuration that they describe. -/
lemma ofValues?_eq_configuration {vs : List Value} (h : Acceptable vs) :
    Written.ofValues? vs = some (.ofConfiguration (configuration vs)) := by
  have hsettings := isSettings_getD h
  obtain ⟨fields, hfields, -⟩ := hsettings.object
  have horder : vs[0]?.getD (.ofString "asc") = .ofString (configuration vs).direction.name := by
    unfold configuration
    cases hv : vs[0]? with
    | none => rfl
    | some v =>
      rcases h.direction v hv with rfl | rfl
      · rfl
      · rfl
  have hmin : ((vs[1]?.getD (Value.object [])).field? "minKeys").getD (.number (.integer 2)) =
      .number (configuration vs).minKeys := by
    unfold configuration
    dsimp only
    cases hw : (vs[1]?.getD (Value.object [])).field? "minKeys" with
    | none => rw [Option.getD_none]
    | some w =>
      obtain ⟨n, k, rfl, -⟩ := hsettings.minKeys w hw
      rw [Option.getD_some]
  have hcase := bool_boolean true hsettings.caseSensitive
  have hnatural := bool_boolean false hsettings.natural
  rw [hfields] at hcase hnatural hmin
  rw [Written.ofValues?, hfields, Written.ofConfiguration, ← horder, ← hmin]
  dsimp only
  rw [hcase, hnatural, configuration, hfields]

/-- The least number of entries is an integer from two on. -/
lemma two_le_minKeys {vs : List Value} (h : Acceptable vs) :
    ∃ k, (configuration vs).minKeys.toInt? = some k ∧ 2 ≤ k := by
  have hsettings := isSettings_getD h
  unfold configuration
  dsimp only
  cases hw : (vs[1]?.getD (Value.object [])).field? "minKeys" with
  | none => exact ⟨2, rfl, Int.le_refl _⟩
  | some w =>
    obtain ⟨n, k, rfl, hk, hle⟩ := hsettings.minKeys w hw
    exact ⟨k, hk, hle⟩

end Options

/-- Every order is found under its name. -/
lemma Order.lookup_name (o : Order) :
    Order.lookup (codePoints o.direction.name) o.insensitive o.natural = .ok o := by
  obtain ⟨direction, insensitive, natural⟩ := o
  cases direction <;> cases insensitive <;> cases natural <;> rfl

/-- A check never ends for want of an order. -/
lemma verify_ne_unknownOrder (options : Json.Value) (text : Text) (name : CodePoints) :
    verify options text ≠ .error (.unknownOrder name) := by
  have hfaults : Outcome.FaultsIn (· ≠ .unknownOrder name) (verify options text) := by
    refine Outcome.FaultsIn.bind ?_ fun vs _ f hf => ?_
    · cases Options.validate options with
      | error refusal => exact Outcome.faultsIn_error nofun
      | ok vs => exact Outcome.faultsIn_ok vs
    · rintro rfl
      exact (faultsIn_lint_ofText _ text _ hf).elim
  exact fun h => hfaults _ h rfl

open Options in
/-- **Options are accepted exactly by their grammar, and then can be used.**  They are accepted when
the values that they stand for are acceptable; a true boolean and a number other than zero stand for
no values, which is a refusal of its own; and all other options have a violation.  Accepted values,
read as they are written, are a configuration: its order is `asc` or `desc`, its least number of
entries an integer from two on, and the check of its order is found.  So no check of a text ends for
want of an order. -/
theorem validate_accepts_exactly (options : Json.Value) :
    (∀ vs, validate options = .ok vs ↔ values options = .ok vs ∧ Acceptable vs) ∧
    (∀ v, validate options = .error (.notASequence v) ↔
      v = options ∧ (options = .bool true ∨ ∃ n, options = .number n ∧ n.isZero = false)) ∧
    (∀ vs, values options = .ok vs → ¬Acceptable vs →
      ∃ v, validate options = .error (.violation v)) ∧
    (∀ vs, validate options = .ok vs → ∃ w, Written.ofValues? vs = some w ∧
      (w.order = .ofString "asc" ∨ w.order = .ofString "desc") ∧
      (∃ n k, w.minKeys = .number n ∧ n.toInt? = some k ∧ 2 ≤ k) ∧
      w = .ofConfiguration (configuration vs) ∧
      Order.lookup (codePoints (configuration vs).direction.name)
        (!(configuration vs).caseSensitive) (configuration vs).natural =
          .ok (configuration vs).order) ∧
    ∀ text name, verify options text ≠ .error (.unknownOrder name) := by
  refine ⟨fun vs => validate_eq_ok_iff, fun v => validate_eq_notASequence_iff,
    fun vs hvs => (validate_of_values hvs).2, fun vs hvs => ?_, verify_ne_unknownOrder options⟩
  obtain ⟨-, hok⟩ := validate_eq_ok_iff.1 hvs
  refine ⟨_, ofValues?_eq_configuration hok, ?_, ?_, rfl, (configuration vs).order.lookup_name⟩
  · cases hdirection : (configuration vs).direction with
    | ascending => exact .inl (by rw [Written.ofConfiguration, hdirection]; rfl)
    | descending => exact .inr (by rw [Written.ofConfiguration, hdirection]; rfl)
  · obtain ⟨k, hk, hle⟩ := two_le_minKeys hok
    exact ⟨_, k, rfl, hk, hle⟩

/-- The options `["desc", {"natural": true, "minKeys": 3.0}]`, where the number is written with a
fraction. -/
def Sample.fractionOptions : Json.Value :=
  .array [.ofString "desc", .object [(codePoints "natural", .bool true),
    (codePoints "minKeys", .number (.float false (.ofDecimal 30 (-1))))]]

/-- A number with a zero fraction is taken for an integer. -/
theorem validate_accepts_exactly_fraction :
    ∃ vs, Options.validate Sample.fractionOptions = .ok vs ∧
      ∃ w, Options.Written.ofValues? vs = some w ∧ w.order = .ofString "desc" ∧
        (∃ n k, w.minKeys = .number n ∧ n.toInt? = some k ∧ 2 ≤ k) := by
  obtain ⟨haccepts, -, -, hread, -⟩ := validate_accepts_exactly Sample.fractionOptions
  have hok : Options.validate Sample.fractionOptions = .ok [.ofString "desc",
      .object [(codePoints "natural", .bool true),
        (codePoints "minKeys", .number (.float false (.ofDecimal 30 (-1))))]] := by
    refine (haccepts _).2 ⟨rfl, (Options.violations_eq_nil_iff _).1 ?_⟩
    exact List.isEmpty_iff.1 (by decide +kernel)
  obtain ⟨w, hw, -, hmin, -⟩ := hread _ hok
  refine ⟨_, hok, w, hw, ?_, hmin⟩
  cases hw
  rfl

end KeyOrder
