import KeyOrder.Proofs.WordPlaces
import KeyOrder.Syntax.Statement

/-!
# What a parser has read

What a parser gives is said of the index at which it starts and the one that it comes to (`Gives`).
A rule of the grammar is a sequence of steps, so it is followed step by step: `Leads` says of the
steps that are left that they bring to an end what was begun at an earlier index.  There is one
lemma for each kind of step, and a rule is followed by taking them in the order of its steps.
-/

namespace KeyOrder

namespace Parser

variable {α β : Type} {ls : Array Lexeme} {i j k : Nat}

/-! ### Places of lexemes -/

/-- Where the lexeme at an index starts. -/
def startAt (ls : Array Lexeme) (i : Nat) : Place := ((ls[i]?).map (·.span.1)).getD default

/-- Where the lexeme before an index ends. -/
def stopAt (ls : Array Lexeme) (i : Nat) : Place := ((ls[i - 1]?).map (·.span.2)).getD default

/-! ### From one index to another -/

/-- An index is reached from another one when all lexemes between them are there. -/
structure Reaches (ls : Array Lexeme) (i j : Nat) : Prop where
  le : i ≤ j
  le_size : j ≤ max i ls.size

lemma Reaches.refl (i : Nat) : Reaches ls i i := ⟨Nat.le_refl i, Nat.le_max_left ..⟩

lemma Reaches.trans (hij : Reaches ls i j) (hjk : Reaches ls j k) : Reaches ls i k := by
  obtain ⟨hij, hj⟩ := hij
  obtain ⟨hjk, hk⟩ := hjk
  exact ⟨by omega, by omega⟩

/-- Past a lexeme that is there. -/
lemma reaches_succ {l : Lexeme} (hl : ls[i]? = some l) : Reaches ls i (i + 1) := by
  have hlt := (Array.getElem?_eq_some_iff.1 hl).1
  exact ⟨by omega, by omega⟩

/-- Whenever a parser reads from one index to another, the lexemes between them are there, and its
value fits these indices. -/
def Gives (ls : Array Lexeme) (P : Nat → α → Nat → Prop) (p : Parser α) : Prop :=
  ∀ i a j, p ls i = some (a, j) → Reaches ls i j ∧ P i a j

/-- A parser that goes on at the index `k` ends what was begun at the index `i`: where it comes to
is reached from there too, and its value fits these two indices. -/
def Leads (ls : Array Lexeme) (P : Nat → α → Nat → Prop) (i k : Nat) (p : Parser α) : Prop :=
  Reaches ls i k → ∀ a j, p ls k = some (a, j) → Reaches ls i j ∧ P i a j

/-- What fits some indices fits indices around them. -/
def Widens (P : Nat → α → Nat → Prop) : Prop :=
  ∀ ⦃i i' j j' a⦄, i' ≤ i → j ≤ j' → P i a j → P i' a j'

/-- A parser that reads nothing. -/
def Looks (p : Parser α) : Prop := ∀ ⦃ls i a j⦄, p ls i = some (a, j) → j = i

section

variable {P : Nat → α → Nat → Prop} {Q : Nat → β → Nat → Prop}

/-- A rule gives what its steps lead to from where they start. -/
lemma gives_of_leads {p : Parser α} (h : ∀ i, Leads ls P i i p) : Gives ls P p :=
  fun i a j hp => h i (Reaches.refl i) a j hp

lemma Gives.mono {P' : Nat → α → Nat → Prop} {p : Parser α} (hp : Gives ls P p)
    (h : ∀ i a j, P i a j → P' i a j) : Gives ls P' p := by
  intro i a j hread
  obtain ⟨hij, ha⟩ := hp i a j hread
  exact ⟨hij, h i a j ha⟩

/-- The index at which a step is taken is reached. -/
lemma Leads.of_reaches {p : Parser α} (h : Reaches ls i k → Leads ls P i k p) :
    Leads ls P i k p := fun hik => h hik hik

/-! ### The last step -/

lemma leads_pure {a : α} (h : P i a k) : Leads ls P i k (pure a) := by
  rintro hik a j ⟨⟩
  exact ⟨hik, h⟩

lemma leads_fail : Leads ls P i k fail := nofun

lemma gives_fail : Gives ls P fail := nofun

/-- The last step reads a part that ends the whole. -/
lemma Gives.leads {p : Parser α} (hp : Gives ls P p) (hP : Widens P) : Leads ls P i k p := by
  intro hik a j hread
  obtain ⟨hkj, ha⟩ := hp k a j hread
  exact ⟨hik.trans hkj, hP hik.le (Nat.le_refl j) ha⟩

/-- The last step makes a node of what was read. -/
lemma leads_nodeFrom {P : Nat → Node → Nat → Prop} {s : Place} {kind : NodeKind} {cs : List Node}
    (h : P i (.mk kind ⟨s, stopAt ls k⟩ cs) k) : Leads ls P i k (nodeFrom s kind cs) := by
  rintro hik n j ⟨⟩
  exact ⟨hik, h⟩

/-! ### Choices -/

lemma leads_ite {c : Prop} [Decidable c] {p q : Parser α} (hp : Leads ls P i k p)
    (hq : Leads ls P i k q) : Leads ls P i k (if c then p else q) := by
  split
  · exact hp
  · exact hq

lemma leads_orElse {p q : Parser α} (hp : Leads ls P i k p) (hq : Leads ls P i k q) :
    Leads ls P i k (p <|> q) := by
  intro hik a j h
  simp only [HOrElse.hOrElse, OrElse.orElse] at h
  split at h
  · rename_i r hr
    cases h
    exact hp hik a j hr
  · exact hq hik a j h

lemma gives_orElse {p q : Parser α} (hp : Gives ls P p) (hq : Gives ls P q) :
    Gives ls P (p <|> q) :=
  gives_of_leads fun i => leads_orElse (fun _ => hp i) (fun _ => hq i)

/-! ### One step after another -/

/-- A step that has a value at once. -/
lemma leads_pure_bind {b : β} {f : β → Parser α} (h : Leads ls P i k (f b)) :
    Leads ls P i k (pure b >>= f) := h

/-- A step that reads a part. -/
lemma Gives.bind {p : Parser β} {f : β → Parser α} (hp : Gives ls Q p)
    (h : ∀ b j, k ≤ j → Q k b j → Leads ls P i j (f b)) : Leads ls P i k (p >>= f) := by
  intro hik a m hread
  change andThen p f ls k = _ at hread
  unfold andThen at hread
  split at hread
  · rename_i b j hb
    obtain ⟨hkj, hQ⟩ := hp k b j hb
    exact h b j hkj.le hQ (hik.trans hkj) a m hread
  · cases hread

/-- A step that looks ahead. -/
lemma Looks.bind {p : Parser β} {f : β → Parser α} (hp : Looks p)
    (h : ∀ b, Leads ls P i k (f b)) : Leads ls P i k (p >>= f) := by
  have hgives : Gives ls (fun i _ j => j = i) p := by
    intro i b j hread
    obtain rfl := hp hread
    exact ⟨Reaches.refl j, rfl⟩
  refine hgives.bind fun b j _ hj => ?_
  rw [hj]
  exact h b

/-- A step that reads a part, if it is there. -/
lemma Gives.optional_bind {p : Parser β} {f : Option β → Parser α} (hp : Gives ls Q p)
    (hsome : ∀ b j, k ≤ j → Q k b j → Leads ls P i j (f (some b)))
    (hnone : Leads ls P i k (f none)) : Leads ls P i k (optional p >>= f) := by
  have hoptional : Gives ls (fun i b j => (∃ c, b = some c ∧ Q i c j) ∨ b = none ∧ j = i)
      (optional p) := by
    intro i b j h
    unfold optional at h
    split at h
    · rename_i c k hc
      cases h
      obtain ⟨hij, hQ⟩ := hp i c j hc
      exact ⟨hij, .inl ⟨c, rfl, hQ⟩⟩
    · cases h
      exact ⟨Reaches.refl i, .inr ⟨rfl, rfl⟩⟩
  refine hoptional.bind fun b j hkj hb => ?_
  rcases hb with ⟨c, rfl, hQ⟩ | ⟨rfl, rfl⟩
  · exact hsome c j hkj hQ
  · exact hnone

/-- A step that notes the place where the next lexeme starts. -/
lemma leads_startPlace {f : Place → Parser α} (h : Leads ls P i k (f (startAt ls k))) :
    Leads ls P i k (startPlace >>= f) := h

/-- A step that notes the place where the last lexeme ends. -/
lemma leads_stopPlace {f : Place → Parser α} (h : Leads ls P i k (f (stopAt ls k))) :
    Leads ls P i k (stopPlace >>= f) := h

/-- A step that makes a node of what was read. -/
lemma leads_nodeFrom_bind {s : Place} {kind : NodeKind} {cs : List Node} {f : Node → Parser α}
    (h : Leads ls P i k (f (.mk kind ⟨s, stopAt ls k⟩ cs))) :
    Leads ls P i k (nodeFrom s kind cs >>= f) := h

/-! ### Single lexemes -/

lemma gives_satisfy (q : Lexeme → Bool) :
    Gives ls (fun i l j => ls[i]? = some l ∧ q l = true ∧ j = i + 1) (satisfy q) := by
  intro i l j h
  unfold satisfy at h
  split at h
  · rename_i m hm
    split at h
    · rename_i hq
      cases h
      exact ⟨reaches_succ hm, hm, hq, rfl⟩
    · cases h
  · cases h

lemma gives_ofKind (kind : LexemeKind) :
    Gives ls (fun i l j => ls[i]? = some l ∧ l.kind = kind ∧ j = i + 1) (ofKind kind) :=
  (gives_satisfy _).mono fun _ _ _ ⟨hl, hkind, hj⟩ => ⟨hl, beq_iff_eq.1 hkind, hj⟩

lemma gives_word (s : String) :
    Gives ls (fun i _ j => (∃ l, ls[i]? = some l ∧ isWord s l = true) ∧ j = i + 1) (word s) :=
  gives_of_leads fun _ => (gives_satisfy (isWord s)).bind fun l _ _ ⟨hl, hword, hj⟩ =>
    leads_pure ⟨⟨l, hl, hword⟩, hj⟩

/-- A step that reads a word. -/
lemma leads_word {s : String} {f : Unit → Parser α} (h : Leads ls P i (k + 1) (f ())) :
    Leads ls P i k (word s >>= f) :=
  (gives_word s).bind fun _ _ _ ⟨_, hj⟩ => hj ▸ h

/-- A step that reads a lexeme of a kind. -/
lemma leads_ofKind {kind : LexemeKind} {f : Lexeme → Parser α}
    (h : ∀ l, Leads ls P i (k + 1) (f l)) : Leads ls P i k (ofKind kind >>= f) :=
  (gives_ofKind kind).bind fun l _ _ ⟨_, _, hj⟩ => hj ▸ h l

/-- A step that reads a name. -/
lemma leads_name {f : Lexeme → Parser α}
    (h : ∀ l, ls[k]? = some l → isName l = true → Leads ls P i (k + 1) (f l)) :
    Leads ls P i k (name >>= f) :=
  (gives_satisfy isName).bind fun l _ _ ⟨hl, hname, hj⟩ => hj ▸ h l hl hname

/-! ### Looking ahead -/

lemma looks_pure (a : α) : Looks (pure a : Parser α) := by
  rintro ls i b j ⟨⟩
  rfl

lemma looks_fail : Looks (fail : Parser α) := nofun

lemma Looks.andThen {p : Parser β} {f : β → Parser α} (hp : Looks p) (hf : ∀ b, Looks (f b)) :
    Looks (p >>= f) := by
  intro ls i a j h
  change Parser.andThen p f ls i = _ at h
  unfold Parser.andThen at h
  split at h
  · rename_i b k hb
    obtain rfl := hp hb
    exact hf b h
  · cases h

lemma looks_peek (n : Nat) : Looks (peek n) := by
  rintro ls i a j ⟨⟩
  rfl

lemma looks_sees (s : String) : Looks (sees s) := (looks_peek 0).andThen fun _ => looks_pure _

lemma looks_seesSecond (s : String) : Looks (seesSecond s) :=
  (looks_peek 1).andThen fun _ => looks_pure _

lemma looks_seesName : Looks seesName := (looks_peek 0).andThen fun _ => looks_pure _

lemma looks_notAhead (s : String) : Looks (notAhead s) := by
  refine (looks_sees s).andThen fun b => ?_
  split
  · exact looks_fail
  · exact looks_pure ()

lemma gives_accept (s : String) :
    Gives ls (fun i b j => j = if b = true then i + 1 else i) (accept s) :=
  gives_of_leads fun _ => (looks_sees s).bind fun _ =>
    leads_ite (leads_word (leads_pure rfl)) (leads_pure rfl)

/-- A step that may read a word, and a choice between what follows. -/
lemma leads_accept {s : String} {p q : Parser α} (hp : Leads ls P i (k + 1) p)
    (hq : Leads ls P i k q) :
    Leads ls P i k (accept s >>= fun b => if b = true then p else q) := by
  refine (gives_accept s).bind fun b j _ hj => ?_
  cases b with
  | true => exact hj ▸ hp
  | false => exact hj ▸ hq

/-- A step that may read a word. -/
lemma leads_accept_any {s : String} {f : Bool → Parser α}
    (h : ∀ b j, k ≤ j → Leads ls P i j (f b)) : Leads ls P i k (accept s >>= f) :=
  (gives_accept s).bind fun b j hkj _ => h b j hkj

end

/-! ### Repetition -/

section

variable {P : Nat → α → Nat → Prop} {p : Parser α}

lemma gives_upTo (hP : Widens P) (hp : Gives ls P p) (n : Nat) :
    Gives ls (fun i as j => ∀ a ∈ as, P i a j) (upTo n p) := by
  induction n with
  | zero =>
    rintro i as j ⟨⟩
    exact ⟨Reaches.refl i, List.forall_mem_nil _⟩
  | succ n ih =>
    intro i as j h
    rw [upTo] at h
    split at h
    · cases h
      exact ⟨Reaches.refl i, List.forall_mem_nil _⟩
    · rename_i a k hk
      obtain ⟨hik, ha⟩ := hp i a k hk
      split at h
      · cases h
        exact ⟨hik, List.forall_mem_singleton.2 ha⟩
      · split at h
        · rename_i as k' has
          cases h
          obtain ⟨hkj, has⟩ := ih k _ _ has
          refine ⟨hik.trans hkj, List.forall_mem_cons.2 ⟨?_, ?_⟩⟩
          · exact hP (Nat.le_refl i) hkj.le ha
          · exact fun b hb => hP hik.le (Nat.le_refl _) (has b hb)
        · cases h

/-- All that is read again and again. -/
lemma gives_many (hP : Widens P) (hp : Gives ls P p) :
    Gives ls (fun i as j => ∀ a ∈ as, P i a j) (many p) :=
  fun i => gives_upTo hP hp (ls.size - i) i

lemma gives_many1 (hP : Widens P) (hp : Gives ls P p) :
    Gives ls (fun i as j => as ≠ [] ∧ ∀ a ∈ as, P i a j) (many1 p) := by
  refine gives_of_leads fun i => hp.bind fun a k hik ha => ?_
  refine (gives_many hP hp).bind fun as j hkj has => leads_pure ?_
  refine ⟨List.cons_ne_nil _ _, List.forall_mem_cons.2 ⟨?_, ?_⟩⟩
  · exact hP (Nat.le_refl i) hkj ha
  · exact fun b hb => hP hik (Nat.le_refl j) (has b hb)

/-- What is read after a word. -/
lemma gives_after (s : String) (hP : Widens P) (hp : Gives ls P p) :
    Gives ls P (do word s; p) :=
  gives_of_leads fun _ => leads_word (hp.leads hP)

/-- All that is read with commas between. -/
lemma gives_commaList (hP : Widens P) (hp : Gives ls P p) :
    Gives ls (fun i as j => as.1 ≠ [] ∧ ∀ a ∈ as.1, P i a j) (commaList p) := by
  refine gives_of_leads fun i => hp.bind fun a k hik ha => ?_
  refine (gives_many hP (gives_after "," hP hp)).bind fun as k' hkk' has => ?_
  refine leads_accept_any fun trailing j hkj => leads_pure ?_
  refine ⟨List.cons_ne_nil _ _, List.forall_mem_cons.2 ⟨?_, ?_⟩⟩
  · exact hP (Nat.le_refl i) (hkk'.trans hkj) ha
  · exact fun b hb => hP hik hkj (has b hb)

end

end Parser

namespace Grammar

open KeyOrder.Parser

variable {α : Type} {ls : Array Lexeme} {P : Nat → α → Nat → Prop} {i k : Nat}

lemma looks_seesClause : Looks seesClause :=
  (looks_sees "for").andThen fun _ => (looks_sees "async").andThen fun _ => looks_pure _

lemma looks_size : Looks size := by
  rintro ls i a j ⟨⟩
  rfl

lemma looks_seesEnd : Looks seesEnd :=
  (looks_peek 0).andThen fun _ => (looks_sees ";").andThen fun _ => looks_pure _

lemma gives_oneOf (ops : List String) : Gives ls (fun i _ j => j = i + 1) (oneOf ops) :=
  gives_of_leads fun _ => (gives_satisfy _).bind fun _ _ _ ⟨_, _, hj⟩ => leads_pure hj

/-- A choice after looking ahead whether a name and a word come next. -/
lemma leads_seesName_seesSecond {s : String} {p q : Parser α} (hp : Leads ls P i k p)
    (hq : Leads ls P i k q) :
    Leads ls P i k (seesName >>= fun a => seesSecond s >>= fun b =>
      if (a && b) = true then p else q) :=
  looks_seesName.bind fun _ => (looks_seesSecond s).bind fun _ => leads_ite hp hq

end Grammar

end KeyOrder
