import KeyOrder.Proofs.Quoting

/-!
# Strings at the end of a line

The tokens of a text are read line by line, each line with its own line break, and the lexemes are
cut from the text with `\n` for each of them.  What is left of a line is compared in both readings:
a string that is open at its start ends in it for both, or goes on after it for both, and whatever
the tokens take from it, the strings in what remains are closed as before.
-/

namespace KeyOrder

open Text (isBreak Quoted Code)

namespace Text

/-- A text without breaks. -/
def Unbroken (x : Text) : Prop := ∀ c ∈ x, isBreak c = false

/-- How a line ends before a text `rest`: with a line break, or with the whole text. -/
def LineEnd (brk rest : Text) : Prop := brk = ['\n'] ∨ brk = ['\r', '\n'] ∨ brk = [] ∧ rest = []

lemma Unbroken.drop {x : Text} (h : Unbroken x) (n : Nat) : Unbroken (x.drop n) :=
  fun c hc => h c (List.mem_of_mem_drop hc)

lemma LineEnd.head_ne {brk rest : Text} (h : LineEnd brk rest) {a : Char}
    (ha : isBreak a = false) : ∀ c ∈ brk.head?, c ≠ a := by
  rintro c hc rfl
  rcases h with rfl | rfl | ⟨rfl, -⟩
  · cases hc
    exact absurd ha (by decide)
  · cases hc
    exact absurd ha (by decide)
  · cases hc

/-- Two quotes at the end of a line stand in the line. -/
lemma isPrefixOf_append {a : Char} (x : Text) {r : Text} (h : ∀ c ∈ r.head?, c ≠ a) :
    [a, a].isPrefixOf (x ++ r) = [a, a].isPrefixOf x := by
  have hone : ∀ {b : Char}, [b].isPrefixOf r = true → b ≠ a := by
    intro b hb
    cases r with
    | nil => cases hb
    | cons c r =>
      have hbc : b = c := by simpa [List.isPrefixOf] using hb
      exact hbc ▸ h c rfl
  match x with
  | [] =>
    cases r with
    | nil => rfl
    | cons c r => simp [List.isPrefixOf, Ne.symm (h c rfl)]
  | [b] =>
    have hfalse : [a].isPrefixOf r = false := by
      by_contra hr
      exact hone (Bool.not_eq_false _ ▸ hr) rfl
    simp [List.isPrefixOf, hfalse]
  | b :: c :: x => simp [List.isPrefixOf]

end Text

open Text (Unbroken LineEnd isPrefixOf_append)

/-- A line is read character by character, and two at a time after a backslash. -/
lemma Text.escape_induction {motive : Text → Prop} (nil : motive []) (backslash : motive ['\\'])
    (escaped : ∀ c x, motive x → motive ('\\' :: c :: x))
    (plain : ∀ c x, c ≠ '\\' → motive x → motive (c :: x)) : ∀ x, motive x
  | [] => nil
  | [c] => by
    by_cases hc : c = '\\'
    · rw [hc]
      exact backslash
    · exact plain c [] hc nil
  | c :: e :: x => by
    by_cases hc : c = '\\'
    · rw [hc]
      exact escaped e x (escape_induction nil backslash escaped plain x)
    · exact plain c (e :: x) hc (escape_induction nil backslash escaped plain (e :: x))

/-! ### The end of a string that is open at the start of a line -/

namespace Shape

lemma closing_cons {d : Delimiter} {c : Char} (hc : c ≠ '\\') (cs : Text) :
    closing d (c :: cs) = if c = d.quote ∧ (d.triple = false ∨ [c, c].isPrefixOf cs) then
      some d.length else (closing d cs).map (· + 1) := by
  rw [closing, if_neg hc]
  rintro _ _ h
  exact absurd h hc

lemma firstLine_cons {quote c : Char} (hc : isBreak c = false) (hc' : c ≠ '\\') (cs : Text) :
    firstLine quote (c :: cs) = if c = quote then some (.closed 1) else
      (firstLine quote cs).map (.later 1) := by
  have hn : ¬(c = '\\' ∨ c = '\n') := by
    rintro (h | rfl)
    · exact hc' h
    · exact absurd hc (by decide)
  rw [firstLine, if_neg hn]
  · rintro _ h
    exact absurd h hc'
  · rintro _ h
    exact absurd h hc'
  · rintro _ _ h
    exact absurd h hc'

lemma firstLine_backslash {quote c : Char} (hc : isBreak c = false) (cs : Text) :
    firstLine quote ('\\' :: c :: cs) = (firstLine quote cs).map (.later 2) := by
  have hne : c ≠ '\n' ∧ c ≠ '\r' := by
    constructor <;> (rintro rfl; exact absurd hc (by decide))
  rw [firstLine]
  · exact fun h => hne.1 h
  · exact fun _ h => absurd h hne.2

end Shape

lemma Lexeme.closing_cons {d : Shape.Delimiter} {c : Char} (hc : c ≠ '\\') (cs : Text) :
    closing d (c :: cs) = if c = d.quote ∧ (d.triple = false ∨ [c, c].isPrefixOf cs) then
      some d.length else if c = '\n' ∧ d.triple = false then none
      else (closing d cs).map (· + 1) := by
  rw [closing]
  rintro _ _ h
  exact absurd h hc

/-- A string that ends in what follows a line, `n` characters after the start of the line. -/
def ClosesLater (d : Shape.Delimiter) (x rest : Text) (n : Nat) : Prop :=
  ∃ m, n = x.length + 1 + m ∧ Lexeme.closing d rest = some m

/-- Where a string ends that is open before a line. -/
def ClosesBy (d : Shape.Delimiter) (x brk rest : Text) (n : Nat) : Prop :=
  Shape.closing d (x ++ brk) = some n ∧ n ≤ x.length ∨
  Shape.closing d (x ++ brk) = none ∧ (d.triple = true ∨ x.getLast? = some '\\') ∧
    ClosesLater d x rest n

/-- The same for a string that starts in the line, between single quotes. -/
def FirstClosesBy (d : Shape.Delimiter) (x brk rest : Text) (n : Nat) : Prop :=
  Shape.firstLine d.quote (x ++ brk) = some (.closed n) ∧ n ≤ x.length ∨
  Shape.firstLine d.quote (x ++ brk) = some .continued ∧ ClosesLater d x rest n

section

variable {d : Shape.Delimiter} {x brk rest : Text} {n : Nat}

lemma ClosesLater.append (p : Text) (h : ClosesLater d x rest n) :
    ClosesLater d (p ++ x) rest (n + p.length) := by
  obtain ⟨m, rfl, hm⟩ := h
  refine ⟨m, ?_, hm⟩
  rw [List.length_append]
  omega

/-- Characters before a line that do not close the string. -/
lemma ClosesBy.append {p : Text}
    (hp : Shape.closing d (p ++ x ++ brk) = (Shape.closing d (x ++ brk)).map (· + p.length))
    (h : ClosesBy d x brk rest n) : ClosesBy d (p ++ x) brk rest (n + p.length) := by
  rcases h with ⟨hclosing, hle⟩ | ⟨hclosing, hgoes, hlater⟩
  · refine .inl ⟨by rw [hp, hclosing]; rfl, ?_⟩
    rw [List.length_append]
    omega
  · refine .inr ⟨by rw [hp, hclosing]; rfl, hgoes.imp_right fun hlast => ?_, hlater.append p⟩
    rw [List.getLast?_append, hlast]
    rfl

lemma FirstClosesBy.append {p : Text}
    (hp : Shape.firstLine d.quote (p ++ x ++ brk) =
      (Shape.firstLine d.quote (x ++ brk)).map (.later p.length))
    (h : FirstClosesBy d x brk rest n) : FirstClosesBy d (p ++ x) brk rest (n + p.length) := by
  rcases h with ⟨hline, hle⟩ | ⟨hline, hlater⟩
  · refine .inl ⟨?_, ?_⟩
    · rw [hp, hline, Nat.add_comm]
      rfl
    · rw [List.length_append]
      omega
  · exact .inr ⟨by rw [hp, hline]; rfl, hlater.append p⟩

lemma ne_newline (hquote : isBreak d.quote = false) : '\n' ≠ d.quote := by
  intro h
  rw [← h] at hquote
  exact absurd hquote (by decide)

/-- The end of a line closes no string. -/
lemma closing_brk (hquote : isBreak d.quote = false) (hend : LineEnd brk rest) :
    Shape.closing d brk = none := by
  have hn : '\n' ≠ d.quote := ne_newline hquote
  have hr : '\r' ≠ d.quote := fun hc => absurd (hc ▸ hquote) (by decide)
  rcases hend with rfl | rfl | ⟨rfl, -⟩
  · rw [Shape.closing_cons (by decide), if_neg (fun hc => hn hc.1)]
    rfl
  · rw [Shape.closing_cons (by decide), if_neg (fun hc => hr hc.1),
      Shape.closing_cons (by decide), if_neg (fun hc => hn hc.1)]
    rfl
  · rfl

/-- Nor does it after a backslash. -/
lemma closing_backslash_brk (hquote : isBreak d.quote = false) (hend : LineEnd brk rest) :
    Shape.closing d ('\\' :: brk) = none := by
  rcases hend with rfl | rfl | ⟨rfl, -⟩
  · rfl
  · rw [Shape.closing, if_neg (by decide), Shape.closing_cons (by decide),
      if_neg (fun hc => ne_newline hquote hc.1)]
    rfl
  · rfl

/-- The quotes that close a string stand in the line. -/
lemma length_le_of_closes {c : Char} (h : d.triple = false ∨ [c, c].isPrefixOf x = true) :
    d.length ≤ (c :: x).length := by
  rw [List.length_cons, Shape.Delimiter.length]
  split
  · rename_i htriple
    have hprefix := h.resolve_left (by simp [htriple])
    have hlength := (List.isPrefixOf_iff_prefix.1 hprefix).length_le
    simp only [List.length_cons, List.length_nil] at hlength
    omega
  · omega

/-- A string that is open before a line ends where the tokens end it, or it goes on in the next
line. -/
lemma closesBy_of_closing (hquote : isBreak d.quote = false) (hend : LineEnd brk rest)
    (hx : Unbroken x) (h : Lexeme.closing d (x ++ '\n' :: rest) = some n) :
    ClosesBy d x brk rest n := by
  induction x using Text.escape_induction generalizing n with
  | nil =>
    -- the line is empty, so the string goes on
    rw [List.nil_append, Lexeme.closing_cons (by decide),
      if_neg (fun hc => ne_newline hquote hc.1)] at h
    split at h
    · cases h
    · rename_i htriple
      obtain ⟨m, hm, rfl⟩ := Option.map_eq_some_iff.1 h
      exact .inr ⟨closing_brk hquote hend, .inl (by simpa using htriple), m,
        by simp [Nat.add_comm], hm⟩
  | backslash =>
    -- the line break is hidden
    rw [List.cons_append, List.nil_append, Lexeme.closing] at h
    obtain ⟨m, hm, rfl⟩ := Option.map_eq_some_iff.1 h
    exact .inr ⟨closing_backslash_brk hquote hend, .inr rfl, m, by simp [Nat.add_comm], hm⟩
  | escaped c x ih =>
    obtain ⟨hc, hx⟩ := List.forall_mem_cons.1 (List.forall_mem_cons.1 hx).2
    rw [List.cons_append, List.cons_append, Lexeme.closing] at h
    obtain ⟨m, hm, rfl⟩ := Option.map_eq_some_iff.1 h
    refine ClosesBy.append (p := ['\\', c]) ?_ (ih hx hm)
    have hcn : c ≠ '\n' := by
      rintro rfl
      exact absurd hc (by decide)
    change Shape.closing d ('\\' :: c :: (x ++ brk)) = _
    rw [Shape.closing, if_neg hcn]
    rfl
  | plain c x hslash ih =>
    obtain ⟨hc, hx⟩ := List.forall_mem_cons.1 hx
    have hcn : c ≠ '\n' := by
      rintro rfl
      exact absurd hc (by decide)
    have hnewline : ∀ e ∈ ('\n' :: rest).head?, e ≠ c := by
      rintro _ ⟨⟩
      exact Ne.symm hcn
    rw [List.cons_append, Lexeme.closing_cons hslash, isPrefixOf_append x hnewline] at h
    by_cases hclose : c = d.quote ∧ (d.triple = false ∨ [c, c].isPrefixOf x)
    · -- the string ends here
      rw [if_pos hclose] at h
      cases h
      refine .inl ⟨?_, length_le_of_closes hclose.2⟩
      rw [List.cons_append, Shape.closing_cons hslash, isPrefixOf_append x (hend.head_ne hc),
        if_pos hclose]
    · rw [if_neg hclose, if_neg (fun hc => hcn hc.1)] at h
      obtain ⟨m, hm, rfl⟩ := Option.map_eq_some_iff.1 h
      refine ClosesBy.append (p := [c]) ?_ (ih hx hm)
      change Shape.closing d (c :: (x ++ brk)) = _
      rw [Shape.closing_cons hslash, isPrefixOf_append x (hend.head_ne hc), if_neg hclose]
      rfl

/-- A string that starts in a line between single quotes ends where the tokens end it, or it goes
on in the next line. -/
lemma firstClosesBy_of_closing (htriple : d.triple = false) (hquote : isBreak d.quote = false)
    (hend : LineEnd brk rest) (hx : Unbroken x)
    (h : Lexeme.closing d (x ++ '\n' :: rest) = some n) : FirstClosesBy d x brk rest n := by
  have hn : '\n' ≠ d.quote := ne_newline hquote
  induction x using Text.escape_induction generalizing n with
  | nil =>
    rw [List.nil_append, Lexeme.closing_cons (by decide), if_neg (fun hc => hn hc.1),
      if_pos ⟨rfl, htriple⟩] at h
    cases h
  | backslash =>
    -- the line break is hidden, so it is not the end of the text
    rw [List.cons_append, List.nil_append, Lexeme.closing] at h
    obtain ⟨m, hm, rfl⟩ := Option.map_eq_some_iff.1 h
    rcases hend with rfl | rfl | ⟨-, rfl⟩
    · exact .inr ⟨rfl, m, by simp [Nat.add_comm], hm⟩
    · exact .inr ⟨rfl, m, by simp [Nat.add_comm], hm⟩
    · cases hm
  | escaped c x ih =>
    obtain ⟨hc, hx⟩ := List.forall_mem_cons.1 (List.forall_mem_cons.1 hx).2
    rw [List.cons_append, List.cons_append, Lexeme.closing] at h
    obtain ⟨m, hm, rfl⟩ := Option.map_eq_some_iff.1 h
    exact FirstClosesBy.append (p := ['\\', c]) (Shape.firstLine_backslash hc _) (ih hx hm)
  | plain c x hslash ih =>
    obtain ⟨hc, hx⟩ := List.forall_mem_cons.1 hx
    rw [List.cons_append, Lexeme.closing_cons hslash] at h
    by_cases hclose : c = d.quote
    · rw [if_pos ⟨hclose, .inl htriple⟩, Shape.Delimiter.length, htriple] at h
      cases h
      refine .inl ⟨?_, by simp⟩
      rw [List.cons_append, Shape.firstLine_cons hc hslash, if_pos hclose]
      rfl
    · have hcn : c ≠ '\n' := by
        rintro rfl
        exact absurd hc (by decide)
      rw [if_neg (fun hc => hclose hc.1), if_neg (fun hc => hcn hc.1)] at h
      obtain ⟨m, hm, rfl⟩ := Option.map_eq_some_iff.1 h
      refine FirstClosesBy.append (p := [c]) ?_ (ih hx hm)
      exact (Shape.firstLine_cons hc hslash _).trans (if_neg hclose)

end

/-! ### What stands at the start of a line's rest -/

namespace Shape

/-- A string that is open at the end of a line, and is closed in what follows. -/
def Delimiter.ClosedIn (d : Delimiter) (rest : Text) : Prop :=
  isBreak d.quote = false ∧ ∃ m, Lexeme.closing d rest = some m ∧ Quoted (rest.drop m)

/-- Characters of a line after which strings are closed as before. -/
def Passes (y brk rest : Text) (n : Nat) : Prop :=
  Unbroken ((y ++ brk).take n) ∧ Quoted (y.drop n ++ '\n' :: rest)

/-- What the head of a line's rest leaves: strings are closed after it as they are before it. -/
def Keeps (y brk rest : Text) : Option Head → Prop
  | none => ∃ c cs, y = c :: cs ∧ Quoted (cs ++ '\n' :: rest)
  | some .nothing => Quoted rest
  | some (.continuation n) => (y ++ brk).drop n = [] ∧ Quoted rest
  | some (.lineBreak n) => (y ++ brk).drop n = [] ∧ Quoted rest
  | some (.token _ n) => Passes y brk rest n
  | some (.openString d) => d.ClosedIn rest

section

variable {y brk rest : Text} {n : Nat}

/-- Without a break among them, the characters stand before the end of the line. -/
lemma drop_line (hend : LineEnd brk rest) (h : Unbroken ((y ++ brk).take n)) :
    (y ++ brk).drop n = y.drop n ++ brk := by
  by_cases hn : n ≤ y.length
  · exact List.drop_append_of_le_length hn
  · have hy : y.drop n = [] := List.drop_eq_nil_of_le (by omega)
    rw [List.drop_append, hy, List.nil_append, List.nil_append]
    obtain ⟨k, hk⟩ : ∃ k, n - y.length = k + 1 := ⟨n - y.length - 1, by omega⟩
    rw [List.take_append, hk] at h
    obtain ⟨-, hbrk⟩ := List.forall_mem_append.1 h
    rcases hend with rfl | rfl | ⟨rfl, -⟩
    · exact absurd (hbrk '\n' (by simp)) (by decide)
    · exact absurd (hbrk '\r' (by simp)) (by decide)
    · exact List.drop_nil

/-- Plain characters of a line. -/
lemma passes_of_plain (hbreak : Unbroken ((y ++ brk).take n))
    (hplain : ∀ c ∈ (y ++ brk).take n, Text.isPlain c = true)
    (hq : Quoted (y ++ '\n' :: rest)) : Passes y brk rest n := by
  refine ⟨hbreak, ?_⟩
  rw [List.take_append] at hplain
  rw [← List.take_append_drop n y, List.append_assoc] at hq
  exact hq.of_append (List.forall_mem_append.1 hplain).1

lemma passes_of_code (hcode : Code ((y ++ brk).take n)) (hq : Quoted (y ++ '\n' :: rest)) :
    Passes y brk rest n := by
  refine passes_of_plain (fun c hc => ?_) (fun c hc => Text.isPlain_of_isCode (hcode c hc)) hq
  simp [isBreak, Text.ne_of_isCode (hcode c hc) (show '\n' ∈ Text.marks by decide),
    Text.ne_of_isCode (hcode c hc) (show '\r' ∈ Text.marks by decide)]

lemma passes_of_le (hy : Unbroken y) (hn : n ≤ y.length)
    (hq : Quoted ((y ++ '\n' :: rest).drop n)) : Passes y brk rest n := by
  refine ⟨fun c hc => ?_, ?_⟩
  · rw [List.take_append_of_le_length hn] at hc
    exact hy c (List.mem_of_mem_take hc)
  · rwa [List.drop_append_of_le_length hn] at hq

/-- The quotes at the start of a string stand in the line. -/
lemma quotes?_line (hy : Unbroken y) (hend : LineEnd brk rest) {d : Delimiter}
    (hd : quotes? (y ++ brk) = some d) :
    quotes? (y ++ '\n' :: rest) = some d ∧ d.length ≤ y.length := by
  cases y with
  | nil =>
    obtain ⟨cs, hbrk, -⟩ := exists_of_quotes? hd
    rw [List.nil_append] at hbrk
    exact absurd rfl (hend.head_ne (isBreak_quote hd) d.quote (by rw [hbrk]; rfl))
  | cons a y =>
    obtain ⟨ha, -⟩ := List.forall_mem_cons.1 hy
    have hnewline : ∀ c ∈ ('\n' :: rest).head?, c ≠ a := by
      rintro _ ⟨⟩ rfl
      exact absurd ha (by decide)
    rw [List.cons_append, quotes?_cons, isPrefixOf_append y (hend.head_ne ha)] at hd
    rw [List.cons_append, quotes?_cons, isPrefixOf_append y hnewline]
    refine ⟨hd, ?_⟩
    rw [← quotes?_cons] at hd
    exact length_le_of_quotes? hd

/-- Where a string starts in a line, it starts for the lexemes too, and they close it. -/
lemma exists_closing (hy : Unbroken y) (hend : LineEnd brk rest)
    (hq : Quoted (y ++ '\n' :: rest)) {d : Delimiter}
    (hstart : stringStart? (y ++ brk) = some (n, d)) :
    n + d.length ≤ y.length ∧ isBreak d.quote = false ∧
      ∃ m, Lexeme.closing d (y.drop (n + d.length) ++ '\n' :: rest) = some m ∧
        Quoted ((y ++ '\n' :: rest).drop (n + d.length + m)) := by
  unfold stringStart? at hstart
  extract_lets letters at hstart
  split at hstart
  · obtain ⟨d', hd, hstart⟩ := Option.map_eq_some_iff.1 hstart
    cases hstart
    -- the letters stand in the line, and so do the quotes
    obtain ⟨hletters, hz⟩ : Passes y brk rest letters.length :=
      passes_of_code (Lexeme.code_letters (y ++ brk)) hq
    rw [drop_line hend hletters] at hd
    obtain ⟨hd', hlength⟩ := quotes?_line (hy.drop _) hend hd
    obtain ⟨m, hm, hrest⟩ := hz.of_quotes hd'
    have hpos : 0 < d.length := by
      unfold Delimiter.length
      split <;> decide
    have hle : letters.length + d.length ≤ y.length := by
      rw [List.length_drop] at hlength
      omega
    rw [List.drop_append_of_le_length hlength, List.drop_drop] at hm
    refine ⟨hle, isBreak_quote hd, m, hm, ?_⟩
    rwa [← List.drop_append_of_le_length (by omega), List.drop_drop, ← Nat.add_assoc] at hrest
  · cases hstart

lemma string?_of_triple {cs : Text} {d : Delimiter} (hstart : stringStart? cs = some (n, d))
    (htriple : d.triple = true) :
    string? cs = some (match closing d (cs.drop (n + d.length)) with
      | some m => .token .string (n + 3 + m)
      | none => .openString d) := by
  rw [string?, hstart, Option.bind_some]
  exact if_pos htriple

lemma string?_of_single {cs : Text} {d : Delimiter} (hstart : stringStart? cs = some (n, d))
    (htriple : ¬d.triple = true) :
    string? cs = (firstLine d.quote (cs.drop (n + d.length))).map fun
      | .closed m => .token .string (n + 1 + m)
      | .continued => .openString d := by
  rw [string?, hstart, Option.bind_some]
  exact if_neg htriple

/-- A string at the start of a line's rest is read to its end, or it is open at the end of the
line. -/
lemma exists_string? (hy : Unbroken y) (hend : LineEnd brk rest)
    (hq : Quoted (y ++ '\n' :: rest)) {d : Delimiter}
    (hstart : stringStart? (y ++ brk) = some (n, d)) :
    ∃ h, string? (y ++ brk) = some h ∧ Keeps y brk rest (some h) := by
  obtain ⟨hle, hquote, m, hm, hrest⟩ := exists_closing hy hend hq hstart
  have hu := hy.drop (n + d.length)
  have hbody : (y ++ brk).drop (n + d.length) = y.drop (n + d.length) ++ brk :=
    List.drop_append_of_le_length hle
  have hpasses : m ≤ (y.drop (n + d.length)).length → Passes y brk rest (n + d.length + m) := by
    intro hm
    rw [List.length_drop] at hm
    exact passes_of_le hy (by omega) hrest
  have hopen : ClosesLater d (y.drop (n + d.length)) rest m → d.ClosedIn rest := by
    rintro ⟨k, rfl, hk⟩
    refine ⟨hquote, k, hk, ?_⟩
    rwa [← List.drop_drop, List.drop_append_of_le_length hle, Nat.add_assoc, Nat.add_comm 1,
      ← List.drop_drop, List.drop_left, List.drop_succ_cons] at hrest
  by_cases htriple : d.triple = true
  · have hthree : d.length = 3 := if_pos htriple
    refine ⟨_, string?_of_triple hstart htriple, ?_⟩
    rw [hbody]
    rcases closesBy_of_closing hquote hend hu hm with ⟨hclosing, hle⟩ | ⟨hclosing, -, hlater⟩
    · rw [hclosing]
      exact hthree ▸ hpasses hle
    · rw [hclosing]
      exact hopen hlater
  · have hone : d.length = 1 := if_neg htriple
    rw [string?_of_single hstart htriple, hbody]
    rcases firstClosesBy_of_closing (by simpa using htriple) hquote hend hu hm with
      ⟨hline, hle⟩ | ⟨hline, hlater⟩
    · rw [hline]
      exact ⟨_, rfl, hone ▸ hpasses hle⟩
    · rw [hline]
      exact ⟨_, rfl, hopen hlater⟩

/-- A quote starts a string. -/
lemma exists_stringStart? {c : Char} (hc : (c == '\'' || c == '"') = true) (cs : Text) :
    ∃ d, stringStart? (c :: cs) = some (0, d) := by
  have halpha : (c :: cs).takeWhile Char.isAlpha = [] := by
    refine List.takeWhile_cons_of_neg ?_
    simp only [Bool.or_eq_true, beq_iff_eq] at hc
    rcases hc with rfl | rfl <;> decide
  have hprefix : stringPrefixes.contains (String.ofList (([] : Text).map Char.toLower)) = true := by
    decide
  refine ⟨⟨c, [c, c].isPrefixOf cs⟩, ?_⟩
  unfold stringStart?
  dsimp only
  rw [halpha, if_pos hprefix, List.length_nil, List.drop_zero, quotes?_cons, if_pos hc]
  rfl

/-- A comment runs to the end of its line. -/
lemma quoted_of_comment (hy : Unbroken y) (hq : Quoted ('#' :: y ++ '\n' :: rest)) :
    Quoted ('\n' :: rest) := by
  have hstay : ∀ c ∈ y, (c != '\n') = true := by
    intro c hc
    rw [bne_iff_ne]
    rintro rfl
    exact absurd (hy '\n' hc) (by decide)
  have hline : Quoted ((y ++ '\n' :: rest).dropWhile (· != '\n')) := hq.of_hash
  rwa [List.dropWhile_append_of_pos hstay] at hline

lemma passes_comment (hy : Unbroken y) (hend : LineEnd brk rest)
    (hq : Quoted ('#' :: y ++ '\n' :: rest)) :
    Passes ('#' :: y) brk rest
      (1 + ((y ++ brk).takeWhile fun c => c != '\r' && c != '\n').length) := by
  have hstay : ∀ c ∈ y, (c != '\r' && c != '\n') = true := by
    intro c hc
    have hbreak := hy c hc
    simp only [isBreak, Bool.or_eq_false_iff, beq_eq_false_iff_ne] at hbreak
    simp [hbreak.1, hbreak.2]
  have hstop : brk.takeWhile (fun c => c != '\r' && c != '\n') = [] := by
    rcases hend with rfl | rfl | ⟨rfl, -⟩ <;> rfl
  rw [List.takeWhile_append_of_pos hstay, hstop, List.append_nil]
  refine passes_of_le ?_ ?_ ?_
  · exact List.forall_mem_cons.2 ⟨rfl, hy⟩
  · rw [List.length_cons, Nat.add_comm]
  · rw [Nat.add_comm, List.cons_append, List.drop_succ_cons, List.drop_left]
    exact quoted_of_comment hy hq

/-- Anything but a comment, a continuation and a line break. -/
lemma keeps_code {c : Char} (hslash : c ≠ '\\') (hhash : c ≠ '#') (hy : Unbroken (c :: y))
    (hend : LineEnd brk rest) (hq : Quoted (c :: y ++ '\n' :: rest)) :
    Keeps (c :: y) brk rest (head? (c :: y ++ brk)) := by
  have hc := (List.forall_mem_cons.1 hy).1
  rw [List.cons_append]
  unfold head?
  split
  · rename_i h
    cases h
  · rename_i h
    exact absurd (List.cons.inj h).1 hslash
  · rename_i h
    exact absurd (List.cons.inj h).1 hslash
  · rename_i h
    rw [(List.cons.inj h).1] at hc
    exact absurd hc (by decide)
  · rename_i h
    rw [(List.cons.inj h).1] at hc
    exact absurd hc (by decide)
  · rename_i h
    exact absurd (List.cons.inj h).1 hhash
  · rw [← List.cons_append]
    split
    · exact passes_of_code (code_number _) hq
    · split
      · exact passes_of_code (code_operator _) hq
      · cases hstart : stringStart? (c :: y ++ brk) with
        | some start =>
          obtain ⟨h, hstring, hkeeps⟩ := exists_string? hy hend hq (d := start.2) hstart
          rw [hstring]
          exact hkeeps
        | none =>
          rw [string?, hstart]
          dsimp only [Option.bind_none]
          unfold word?
          dsimp only
          split
          · -- a quote would start a string
            refine ⟨c, y, rfl, hq.of_cons ?_⟩
            by_contra hplain
            have hquote : (c == '\'' || c == '"') = true := by
              simpa [Text.isPlain, hslash, hhash, or_iff_not_imp_left] using hplain
            obtain ⟨d, hd⟩ := exists_stringStart? hquote (y ++ brk)
            rw [← List.cons_append, hstart] at hd
            cases hd
          · exact passes_of_code (code_word _) hq

/-- **Whatever stands at the start of a line's rest, strings are closed after it.** -/
lemma keeps_head? (hy : Unbroken y) (hend : LineEnd brk rest)
    (hq : Quoted (y ++ '\n' :: rest)) : Keeps y brk rest (head? (y ++ brk)) := by
  cases y with
  | nil =>
    have hrest : Quoted rest := hq.of_cons rfl
    rcases hend with rfl | rfl | ⟨rfl, -⟩
    · exact ⟨rfl, hrest⟩
    · exact ⟨rfl, hrest⟩
    · exact hrest
  | cons c y =>
    by_cases hslash : c = '\\'
    · -- a backslash hides the end of the line
      subst hslash
      obtain ⟨cs, hcs, hq⟩ := hq.of_backslash
      cases y with
      | nil =>
        obtain rfl : rest = cs := (List.cons.inj hcs).2
        rcases hend with rfl | rfl | ⟨rfl, -⟩
        · exact ⟨rfl, hq⟩
        · exact ⟨rfl, hq⟩
        · exact ⟨_, _, rfl, .plain rfl hq⟩
      | cons c y =>
        obtain rfl : c = '\n' := (List.cons.inj hcs).1
        exact absurd (hy '\n' (by simp)) (by decide)
    · by_cases hhash : c = '#'
      · subst hhash
        exact passes_comment (List.forall_mem_cons.1 hy).2 hend hq
      · exact keeps_code hslash hhash hy hend hq

end

end Shape

end KeyOrder
