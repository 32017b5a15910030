import KeyOrder.Proofs.Lines
import KeyOrder.Proofs.Walk
import Mathlib.Algebra.GroupWithZero.Nat

/-!
# Places and offsets

A syntax tree counts lines by every kind of line break, and the index of a text counts them by `\n`
alone.  The two agree up to any offset before which every `\r` belongs to a `\r\n`: there the place
that the tree gives is converted to the offset that it stands for.  So in a text without a lone `\r`
a walk over the tree fails only where tokens and tree do not fit together.
-/

namespace KeyOrder

lemma Lexeme.unifyBreaks_cons {c : Char} (hc : c ≠ '\r') (cs : Text) :
    unifyBreaks (c :: cs) = c :: unifyBreaks cs := by
  rw [unifyBreaks]
  · exact fun _ h _ => hc h
  · exact fun h => hc h

lemma Lexeme.unifyBreaks_eq_nil {cs : Text} : unifyBreaks cs = [] ↔ cs = [] := by
  unfold unifyBreaks
  split <;> simp

namespace Text

/-- Whether every `\r` of a text is followed by `\n`. -/
def paired : Text → Bool
  | [] => true
  | c :: cs => (c != '\r' || cs.head? == some '\n') && paired cs

/-- A text without a lone `\r` is read by its `\r\n`s and its other characters. -/
@[elab_as_elim]
lemma paired_induction {motive : (text : Text) → text.paired = true → Prop}
    (nil : ∀ h, motive [] h)
    (pair : ∀ cs (h : paired ('\r' :: '\n' :: cs) = true) (hcs : paired cs = true),
      motive cs hcs → motive ('\r' :: '\n' :: cs) h)
    (cons : ∀ c cs (h : paired (c :: cs) = true) (hcs : paired cs = true), c ≠ '\r' →
      motive cs hcs → motive (c :: cs) h) (text : Text) (h : text.paired = true) :
    motive text h := by
  induction text using Lexeme.unifyBreaks.induct with
  | case1 cs ih =>
    have hcs : paired cs = true := by simpa [paired] using h
    exact pair cs h hcs (ih hcs)
  | case2 cs hcs ih =>
    -- a carriage return alone
    have hhead : cs.head? = some '\n' := by
      simp only [paired, bne_self_eq_false, Bool.false_or, Bool.and_eq_true, beq_iff_eq] at h
      exact h.1
    obtain ⟨ds, rfl⟩ := List.head?_eq_some_iff.1 hhead
    exact absurd rfl (hcs ds)
  | case3 c cs _ hr ih =>
    have hcs : paired cs = true := by
      simp only [paired, Bool.and_eq_true] at h
      exact h.2
    exact cons c cs h hcs hr (ih hcs)
  | case4 => exact nil h

/-- The number of bytes of a text in UTF-8. -/
def bytes (text : Text) : Nat := (text.map Char.utf8Size).sum

/-- The place at the end of a text that starts at a given place, as a syntax tree counts. -/
def endPlace (text : Text) (start : Place) : Place :=
  (Lexeme.unifyBreaks text).foldl Cursor.after start

@[simp] lemma endPlace_nil (p : Place) : endPlace [] p = p := rfl

@[simp] lemma endPlace_pair (cs : Text) (p : Place) :
    endPlace ('\r' :: '\n' :: cs) p = endPlace cs ⟨p.line + 1, 0⟩ := rfl

@[simp] lemma endPlace_break (cs : Text) (p : Place) :
    endPlace ('\n' :: cs) p = endPlace cs ⟨p.line + 1, 0⟩ := rfl

lemma endPlace_cons {c : Char} (hr : c ≠ '\r') (hn : c ≠ '\n') (cs : Text) (p : Place) :
    endPlace (c :: cs) p = endPlace cs ⟨p.line, p.column + c.utf8Size⟩ := by
  rw [endPlace, Lexeme.unifyBreaks_cons hr, List.foldl_cons, Cursor.after, if_neg hn]
  rfl

end Text

/-! ### The lines of a text in parts -/

/-- What stands before the first line break of a text lengthens its first line. -/
lemma lines_append {front : Text} (hfront : '\n' ∉ front) {rest l : Text} {ls : List Text}
    (hrest : rest.lines = l :: ls) : (front ++ rest).lines = (front ++ l) :: ls := by
  induction front with
  | nil => exact hrest
  | cons c cs ih =>
    rw [List.mem_cons, not_or] at hfront
    rw [List.cons_append, Text.lines, if_neg (Ne.symm hfront.1), ih hfront.2]
    rfl

lemma charactersIn_append (front rest : Text) :
    charactersIn (front ++ rest) (Text.bytes front) = .ok front.length := by
  induction front with
  | nil => cases rest <;> rfl
  | cons c cs ih =>
    have hpos := c.utf8Size_pos
    rw [List.cons_append, Text.bytes, List.map_cons, List.sum_cons, charactersIn]
    · rw [if_neg (by omega), Nat.add_sub_cancel_left]
      change (charactersIn (cs ++ rest) (Text.bytes cs)).map (· + 1) = _
      rw [ih]
      rfl
    · exact fun h => by omega

/-! ### From places to offsets -/

/-- A place that lines give, counted from the line `first` on and from the offset `start` on,
converts to an offset. -/
def Locates (ls : List Text) (first start : Nat) (p : Place) (offset : Nat) : Prop :=
  first ≤ p.line ∧ ∃ l s n, ls[p.line - first]? = some l ∧
    (lineStarts start ls)[p.line - first]? = some s ∧ charactersIn l p.column = .ok n ∧
    s + n = offset

/-- A place in later lines stays where it is when a line is put before them. -/
lemma Locates.cons {ls : List Text} {first start offset : Nat} {p : Place} {l : Text}
    (h : Locates ls (first + 1) (start + l.length) p offset) :
    Locates (l :: ls) first start p offset := by
  obtain ⟨hle, l', s, n, hl, hs, hn, hoffset⟩ := h
  have hindex : p.line - first = (p.line - (first + 1)) + 1 := by omega
  refine ⟨by omega, l', s, n, ?_, ?_, hn, hoffset⟩
  · rw [hindex, List.getElem?_cons_succ, hl]
  · rw [hindex, lineStarts, List.getElem?_cons_succ, hs]

/-- Going on through a text of which `front` is already read in the current line. -/
lemma locates_endPlace {pre front : Text} (hpaired : pre.paired = true) (hfront : '\n' ∉ front)
    (post : Text) {first start offset : Nat} (hoffset : start + front.length + pre.length = offset) :
    Locates (front ++ (pre ++ post)).lines first start (pre.endPlace ⟨first, front.bytes⟩)
      offset := by
  induction pre, hpaired using Text.paired_induction generalizing front first start with
  | pair cs _ _ ih =>
    -- a line break of two characters
    have hline : (front ++ ('\r' :: '\n' :: cs ++ post)).lines =
        (front ++ ['\r', '\n']) :: Text.lines (cs ++ post) := lines_append hfront rfl
    rw [hline, Text.endPlace_pair]
    refine Locates.cons (ih List.not_mem_nil ?_)
    simp only [List.length_append, List.length_cons, List.length_nil] at hoffset ⊢
    omega
  | cons c cs _ _ hr ih =>
    by_cases hn : c = '\n'
    · -- a line break of one character
      subst hn
      have hline : (front ++ ('\n' :: cs ++ post)).lines =
          (front ++ ['\n']) :: Text.lines (cs ++ post) := lines_append hfront rfl
      rw [hline, Text.endPlace_break]
      refine Locates.cons (ih List.not_mem_nil ?_)
      simp only [List.length_append, List.length_cons, List.length_nil] at hoffset ⊢
      omega
    · have hmem : '\n' ∉ front ++ [c] := by simp [hfront, Ne.symm hn]
      have hlength : start + (front ++ [c]).length + cs.length = offset := by
        simp only [List.length_append, List.length_cons, List.length_nil] at hoffset ⊢
        omega
      have hnext : Locates (Text.lines (front ++ [c] ++ (cs ++ post))) first start
          (Text.endPlace cs ⟨first, Text.bytes (front ++ [c])⟩) offset := ih hmem hlength
      rw [Text.endPlace_cons hr hn]
      simpa [Text.bytes] using hnext
  | nil =>
    obtain ⟨l, ls, hls⟩ := List.exists_cons_of_ne_nil (lines_ne_nil post)
    rw [List.nil_append, lines_append hfront hls, Text.endPlace_nil]
    refine ⟨Nat.le_refl _, front ++ l, start, front.length, ?_, ?_, charactersIn_append front l,
      by simpa using hoffset⟩
    · simp
    · simp [lineStarts]

/-- **The place of an offset converts to the offset**, where every `\r` before it belongs to a
`\r\n`. -/
lemma offset_endPlace {pre : Text} (hpaired : pre.paired = true) (post : Text) :
    (LineIndex.ofText (pre ++ post)).offset (pre.endPlace ⟨1, 0⟩) = .ok pre.length := by
  have hlocates : Locates (pre ++ post).lines 1 0 (pre.endPlace ⟨1, 0⟩) pre.length :=
    locates_endPlace hpaired List.not_mem_nil post (Nat.zero_add _)
  obtain ⟨hline, l, s, n, hl, hs, hn, hoffset⟩ := hlocates
  rw [LineIndex.offset, if_neg (by omega)]
  simp only [LineIndex.ofText, List.getElem?_toArray, hl, hs, hn, Except.map, hoffset]

namespace Text

/-- Whether an offset falls between the two characters of a `\r\n`. -/
def splitsPair (text : Text) (offset : Nat) : Bool :=
  (text.take offset).getLast? == some '\r' && (text.drop offset).head? == some '\n'

/-- A text has a place, as a syntax tree counts, at one of its offsets. -/
def HasPlace (text : Text) (p : Place) : Prop :=
  ∃ offset < text.length + 1, text.splitsPair offset = false ∧
    p = endPlace (text.take offset) ⟨1, 0⟩

instance (text : Text) (p : Place) : Decidable (text.HasPlace p) :=
  inferInstanceAs (Decidable (∃ _ < _, _))

/-- The first part of a text without a lone `\r` has none either, unless it ends inside a
`\r\n`. -/
lemma paired_take {text : Text} (h : text.paired = true) {offset : Nat}
    (hsplit : text.splitsPair offset = false) : paired (text.take offset) = true := by
  induction text generalizing offset with
  | nil =>
    rw [List.take_nil]
    rfl
  | cons c cs ih =>
    match offset, cs with
    | 0, _ => rfl
    | 1, cs =>
      simp only [paired, Bool.and_eq_true, Bool.or_eq_true, bne_iff_ne, beq_iff_eq] at h
      have hc : c ≠ '\r' := by
        rintro rfl
        have hhead := h.1.resolve_left (fun hne => hne rfl)
        simp [splitsPair, hhead] at hsplit
      simp [paired, hc]
    | n + 2, [] => exact h
    | n + 2, d :: ds =>
      simp only [paired, Bool.and_eq_true] at h
      have hrest : paired ((d :: ds).take (n + 1)) = true := by
        refine ih (by simpa only [paired, Bool.and_eq_true] using h.2) ?_
        simpa only [splitsPair, List.take_succ_cons, List.getLast?_cons_cons,
          List.drop_succ_cons] using hsplit
      simp only [List.take_succ_cons] at hrest ⊢
      rw [paired, hrest, Bool.and_true]
      exact h.1

/-- A place of a text without a lone `\r` converts to an offset. -/
lemma HasPlace.exists_offset {text : Text} {p : Place} (h : text.HasPlace p)
    (hpaired : text.paired = true) : ∃ o, (LineIndex.ofText text).offset p = .ok o := by
  obtain ⟨o, -, hsplit, rfl⟩ := h
  have hoffset := offset_endPlace (paired_take hpaired hsplit) (text.drop o)
  rw [List.take_append_drop] at hoffset
  exact ⟨_, hoffset⟩

end Text

/-! ### The spans that a walk looks at -/

/-- The nodes whose spans are looked at when a container is made of a node. -/
def Container.measured (n : Node) : List Node :=
  match n.kind with
  | .display | .mapping => n :: n.children.flatMap Node.children
  | .call =>
    n :: (n.children ++ n.children.flatMap fun a => if a.isKeyword then a.children else [])
  | _ => []

/-- Whether the spans that are looked at at a node start and end at places of a text. -/
def Node.standsIn (text : Text) (n : Node) : Bool :=
  (Container.measured n).all fun m =>
    decide (text.HasPlace m.span.start) && decide (text.HasPlace m.span.stop)

open Outcome (FaultsIn faultsIn_ok faultsIn_pure faultsIn_error faultsIn_mapM)

namespace Container

lemma kind_of_kindOf? {n : Node} {kind : ContainerKind} (h : kindOf? n = some kind) :
    n.kind = match kind with
      | .display => .display
      | .pattern => .mapping
      | .call => .call := by
  unfold kindOf? at h
  split at h
  · cases h
    assumption
  · cases h
    assumption
  · split at h
    · cases h
      assumption
    · cases h
  · cases h

lemma isCandidate_of_kindOf? {n : Node} {kind : ContainerKind} (h : kindOf? n = some kind) :
    isCandidate n = true := by
  rw [isCandidate, kind_of_kindOf? h]
  cases kind <;> rfl

lemma mem_measured {n : Node} (h : isCandidate n = true) : n ∈ measured n := by
  have hkind : n.kind = .display ∨ n.kind = .mapping ∨ n.kind = .call := by
    unfold isCandidate at h
    split at h
    · exact .inl ‹_›
    · exact .inr (.inl ‹_›)
    · exact .inr (.inr ‹_›)
    · cases h
  unfold measured
  rcases hkind with hkind | hkind | hkind
  · rw [hkind]
    exact List.mem_cons_self ..
  · rw [hkind]
    exact List.mem_cons_self ..
  · rw [hkind]
    exact List.mem_cons_self ..

variable {src : Source} {s : Fault → Prop}

lemma faultsIn_wrappedRange {n : Node} (h : FaultsIn s (src.rangeOf n.span)) (floor : Nat) :
    FaultsIn s (wrappedRange src floor n) :=
  h.bind fun _ _ => faultsIn_pure _

variable (hmisplaced : s .misplaced)

include hmisplaced

lemma faultsIn_spreadEntry (r : Range) : FaultsIn s (spreadEntry src r) := by
  unfold spreadEntry
  split
  · split
    · exact faultsIn_ok _
    · exact faultsIn_error hmisplaced
  · exact faultsIn_error hmisplaced

lemma faultsIn_displayEntry {floor : Nat} {n : Node}
    (h : ∀ m ∈ n.children, FaultsIn s (src.rangeOf m.span)) :
    FaultsIn s (displayEntry src floor n) := by
  unfold displayEntry
  split
  · rename_i k v hchildren
    rw [hchildren] at h
    have hk := h k (by simp)
    have hv := h v (by simp)
    refine (faultsIn_wrappedRange hv floor).bind fun valueRange _ => ?_
    exact (faultsIn_wrappedRange hk floor).bind fun _ _ => hk.bind fun _ _ => faultsIn_pure _
  · rename_i v hchildren
    rw [hchildren] at h
    have hv := h v (by simp)
    exact (faultsIn_wrappedRange hv floor).bind fun r _ => faultsIn_spreadEntry hmisplaced r
  · exact faultsIn_error hmisplaced

lemma faultsIn_patternEntry {floor : Nat} {n : Node}
    (h : ∀ m ∈ n.children, FaultsIn s (src.rangeOf m.span)) :
    FaultsIn s (patternEntry src floor n) := by
  unfold patternEntry
  split
  · rename_i k p hchildren
    rw [hchildren] at h
    have hk := h k (by simp)
    have hp := h p (by simp)
    refine (faultsIn_wrappedRange hk floor).bind fun _ _ => ?_
    refine (faultsIn_wrappedRange hp floor).bind fun _ _ => ?_
    exact hk.bind fun _ _ => faultsIn_pure _
  · exact faultsIn_error hmisplaced

lemma faultsIn_argumentEntry {floor : Nat} {n : Node} (hn : FaultsIn s (src.rangeOf n.span))
    (h : n.isKeyword = true → ∀ m ∈ n.children, FaultsIn s (src.rangeOf m.span)) :
    FaultsIn s (argumentEntry src floor n) := by
  unfold argumentEntry
  split
  · rename_i name span children
    have hrest : ∀ valueRange : Range, FaultsIn s (src.rangeOf span >>= fun range =>
        pure (entry src .property (some (.keyword name))
          ⟨range.start, max range.stop valueRange.stop⟩
          ⟨range.start, range.start + name.length⟩)) := fun _ => hn.bind fun _ _ => faultsIn_pure _
    split
    · rename_i v
      have hv := h rfl v (by simp [Node.children])
      exact (faultsIn_wrappedRange hv floor).bind fun valueRange _ => hrest valueRange
    · exact (faultsIn_error hmisplaced).bind fun valueRange _ => hrest valueRange
  · exact hn.bind fun _ _ => faultsIn_pure _
  · exact (faultsIn_wrappedRange hn floor).bind fun _ _ => faultsIn_pure _

lemma faultsIn_callFloor {function : Node} (h : FaultsIn s (src.rangeOf function.span)) :
    FaultsIn s (callFloor src function) := by
  refine h.bind fun range _ => ?_
  split
  · split
    · exact faultsIn_pure _
    · exact faultsIn_error hmisplaced
  · exact faultsIn_error hmisplaced

/-- A container cannot be made of a node only where a span that is looked at has no range, or where
tokens and tree do not fit together. -/
lemma faultsIn_build {path : List Nat} {kind : ContainerKind} {n : Node}
    (hkind : kindOf? n = some kind) (h : ∀ m ∈ measured n, FaultsIn s (src.rangeOf m.span)) :
    FaultsIn s (build src path kind n) := by
  have hn := h n (mem_measured (isCandidate_of_kindOf? hkind))
  unfold build
  refine hn.bind fun range _ => ?_
  cases kind with
  | display =>
    refine (faultsIn_mapM fun e he => faultsIn_displayEntry hmisplaced fun m hm => ?_).bind
      fun _ _ => faultsIn_pure _
    refine h m ?_
    rw [measured, kind_of_kindOf? hkind]
    exact List.mem_cons_of_mem _ (List.mem_flatMap.2 ⟨e, he, hm⟩)
  | pattern =>
    refine (faultsIn_mapM fun e he => faultsIn_patternEntry hmisplaced fun m hm => ?_).bind
      fun _ _ => faultsIn_pure _
    refine h m ?_
    rw [measured, kind_of_kindOf? hkind]
    exact List.mem_cons_of_mem _ (List.mem_flatMap.2 ⟨e, he, hm⟩)
  | call =>
    rw [measured, kind_of_kindOf? hkind] at h
    cases hchildren : n.children with
    | nil => exact (faultsIn_error hmisplaced).bind fun _ _ => faultsIn_pure _
    | cons function arguments =>
      rw [hchildren] at h
      have hfunction := faultsIn_callFloor hmisplaced (h function (by simp))
      refine hfunction.bind fun floor _ => ?_
      refine (faultsIn_mapM fun a ha => faultsIn_argumentEntry hmisplaced (h a (by simp [ha]))
        fun hkeyword m hm => h m ?_).bind fun _ _ => faultsIn_pure _
      simp only [List.mem_cons, List.mem_append, List.mem_flatMap]
      exact .inr (.inr ⟨a, .inr ha, by rwa [if_pos hkeyword]⟩)

/-- The same for a node of any kind. -/
lemma faultsIn_ofNode? {path : List Nat} {n : Node}
    (h : ∀ m ∈ measured n, FaultsIn s (src.rangeOf m.span)) : FaultsIn s (ofNode? src path n) := by
  unfold ofNode?
  split
  · rename_i hcandidate
    refine (h n (mem_measured hcandidate)).bind fun range _ => ?_
    split
    · exact faultsIn_pure _
    · split
      · rename_i kind hkind
        exact (faultsIn_build hmisplaced hkind h).bind fun _ _ => faultsIn_pure _
      · exact faultsIn_pure _
  · exact faultsIn_pure _

end Container

namespace Walk

/-- A walk has no fault, or one of some faults. -/
def EndsIn (s : Fault → Prop) (w : Walk) : Prop := ∀ f, w.fault = some f → s f

variable {s : Fault → Prop}

lemma endsIn_empty : EndsIn s empty := fun _ h => nomatch h

lemma endsIn_single (e : Event) : EndsIn s (single e) := fun _ h => nomatch h

lemma EndsIn.append {a b : Walk} (ha : EndsIn s a) (hb : EndsIn s b) : EndsIn s (a ++ b) := by
  intro f hf
  change (Walk.append a b).fault = some f at hf
  unfold Walk.append at hf
  split at hf
  · exact ha f hf
  · exact hb f hf

lemma endsIn_entries {c : Container} {es : List Entry} {ws : List Walk}
    (h : ∀ w ∈ ws, EndsIn s w) : EndsIn s (entries c es ws) := by
  unfold entries
  induction es generalizing ws with
  | nil => exact endsIn_empty
  | cons e es ih =>
    cases ws with
    | nil => exact endsIn_empty
    | cons w ws =>
      have hhere := (endsIn_single (.entry c e)).append (h w (List.mem_cons_self ..))
      exact hhere.append (ih fun v hv => h v (List.mem_cons_of_mem _ hv))

/-- Where no container at a node of a tree faults otherwise, neither does the walk over the tree. -/
lemma closed_endsIn {src : Source} {q : Node → Bool}
    (h : ∀ path n, q n = true → FaultsIn s (Container.ofNode? src path n)) :
    Closed src q (EndsIn s) where
  empty := endsIn_empty
  append := EndsIn.append
  fault := by
    rintro path n f hn hf _ ⟨⟩
    exact h path n hn f hf
  container := by
    intro path n c inner _ hc hlen hinner
    obtain ⟨function, rest, hparts, hfunction, hrest, -⟩ :=
      ofContainer_parts endsIn_empty (length_entries_of_ofNode? hc) hlen hinner
    rw [hparts]
    exact (((endsIn_single _).append hfunction).append (endsIn_entries hrest)).append
      (endsIn_single _)

end Walk

/-- **In a text without a lone `\r` a walk fails only where tokens and tree do not fit together**,
when the spans in the tree start and end at places of the text. -/
lemma fault_eq_misplaced {src : Source} (hlines : src.lines = .ofText src.text)
    (hpaired : src.text.paired = true) (hstands : src.tree.all (Node.standsIn src.text) = true)
    {f : Fault} (hf : src.walk.fault = some f) : f = .misplaced := by
  have hclosed : Walk.Closed src (Node.standsIn src.text) (Walk.EndsIn (· = Fault.misplaced)) := by
    refine Walk.closed_endsIn fun path n hn => ?_
    refine Container.faultsIn_ofNode? (s := (· = Fault.misplaced)) rfl fun m hm => ?_
    simp only [Node.standsIn, List.all_eq_true, Bool.and_eq_true, decide_eq_true_eq] at hn
    obtain ⟨hstart, hstop⟩ := hn m hm
    obtain ⟨a, ha⟩ := hstart.exists_offset hpaired
    obtain ⟨b, hb⟩ := hstop.exists_offset hpaired
    rw [Source.rangeOf, hlines, ha, hb]
    exact faultsIn_ok _
  exact Walk.visit_closed hclosed [] src.tree hstands f hf

end KeyOrder
